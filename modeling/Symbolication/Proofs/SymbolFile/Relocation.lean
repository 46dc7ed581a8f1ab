import Symbolication.Proofs.RangeMap.Disjoint
import Symbolication.Proofs.SymbolFile.ReusedFrame

/-!
The same instruction of a module that is mapped elsewhere. The tables know offsets only, and what they
attach to an offset starts at or below it, so no address that is written lies above the instruction. At
another base the answers are the same, and the addresses move with the module.
-/

namespace Symbolication

namespace Address

section Below

variable (base : Address) (offset o : UInt64)
  (h : base.value.toNat + offset.toNat < UInt64.size) (hle : o ≤ offset)

include h hle

/-- Below an address that does not wrap there is none that wraps. -/
theorem add_lt_size_of_le : base.value.toNat + o.toNat < UInt64.size := by
  have hbelow : o.toNat ≤ offset.toNat := UInt64.le_iff_toNat_le.mp hle
  omega

theorem toNat_add_of_le : (base.add o).value.toNat = base.value.toNat + o.toNat := by
  rw [add, UInt64.toNat_add]
  exact Nat.mod_eq_of_lt (base.add_lt_size_of_le offset o h hle)

end Below

theorem offsetFrom?_eq_some_iff (a base : Address) (offset : UInt64) :
    a.offsetFrom? base = some offset ↔
      base.value.toNat + offset.toNat = a.value.toNat := by
  unfold offsetFrom?
  split
  · rename_i hle
    have hsub := UInt64.toNat_sub_of_le a.value base.value hle
    have hbelow := UInt64.le_iff_toNat_le.mp hle
    rw [Option.some.injEq, ← UInt64.toNat_inj, hsub]
    omega
  · rename_i hlt
    rw [UInt64.le_iff_toNat_le] at hlt
    simp only [reduceCtorEq, false_iff]
    omega

end Address

namespace SymbolFile

namespace Tables

variable (t : Tables)

/-- The source line that a look-up at `offset` attaches. -/
def line? (offset : UInt64) : Option (Range SourceLine) :=
  match t.symbol? offset with
  | some (.function _ function) => function.lines.find? offset
  | some (.publicSymbol ..) | none => none

/-- What a look-up at `offset` writes into a frame that nothing is known about, in a module mapped at
`base`. -/
def attach (base : Address) (offset : UInt64) (frame : StackFrame) : StackFrame :=
  { frame with
    functionName := (t.symbol? offset).map fun s => .ofRaw s.name
    functionBase := (t.symbol? offset).map fun s => base.add s.base
    sourceFile := (t.line? offset).bind fun r => t.fileName? r.value.file
    sourceLine := (t.line? offset).map fun r => r.value.line
    sourceLineBase := (t.line? offset).map fun r => base.add r.base }

theorem lookUp_unresolved (frame : StackFrame) (c : CodeModule) (offset : UInt64)
    (hc : frame.codeModule = some c) (hoffset : frame.moduleOffset? = some offset) :
    t.lookUp frame.unresolved = t.attach c.base offset frame := by
  obtain ⟨instruction, _, name, base, file, line, lineBase, trust⟩ := frame
  cases hc
  have hunresolved : StackFrame.moduleOffset? ⟨instruction, some c, none, none, none, none, none, trust⟩ =
      some offset := hoffset
  -- The frame holds nothing that could stay, so what is written is all that it holds then.
  unfold lookUp attach line? StackFrame.unresolved
  dsimp only
  rw [hunresolved]
  dsimp only
  cases t.symbol? offset with
  | none => rfl
  | some symbol =>
    cases symbol with
    | publicSymbol address symbol => rfl
    | function base function =>
      dsimp only [fillLine]
      cases function.lines.find? offset with
      | none => rfl
      | some r =>
        simp only [Option.or_none]
        rfl

/-- A fresh frame stays as it is, or it has an offset in a module and gets what is attached there. -/
theorem lookUp_unresolved_cases (frame : StackFrame) :
    t.lookUp frame.unresolved = frame.unresolved ∨
      ∃ c offset, frame.codeModule = some c ∧ frame.moduleOffset? = some offset ∧
        t.lookUp frame.unresolved = t.attach c.base offset frame := by
  cases hc : frame.codeModule with
  | none =>
    have hmodule : frame.unresolved.codeModule = none := hc
    left
    rw [lookUp, hmodule]
  | some c =>
    cases hoffset : frame.moduleOffset? with
    | none =>
      have hmodule : frame.unresolved.codeModule = some c := hc
      have hnone : frame.unresolved.moduleOffset? = none := hoffset
      left
      rw [lookUp, hmodule, hnone]
    | some offset => exact Or.inr ⟨c, offset, rfl, rfl, t.lookUp_unresolved frame c offset hc hoffset⟩

/-- The symbol at an offset starts at or below it. -/
theorem base_le_of_symbol? (offset : UInt64) (s : Symbol) (h : t.symbol? offset = some s) :
    s.base ≤ offset := by
  unfold symbol? at h
  dsimp only at h
  split at h
  · -- A function covers the offset.
    rename_i f hf
    cases h
    exact t.functions.base_le_of_find? offset f hf
  · unfold publicSymbol? at h
    split at h
    · cases h
    · rename_i address symbol hpublic
      split at h
      · cases h
      · cases h
        have hbelow := (OrderedMap.atOrBelow?_eq_some_iff.mp hpublic).2.1
        exact UInt64.le_iff_toNat_le.mpr ((OrderedMap.compare_ne_gt_iff _ _).mp hbelow)

theorem base_le_of_line? (offset : UInt64) (r : Range SourceLine) (h : t.line? offset = some r) :
    r.base ≤ offset := by
  unfold line? at h
  split at h
  · exact RangeMap.base_le_of_find? _ offset r h
  · cases h
  · cases h

end Tables

/-- Either address is absent with the other, or `b` lies where `a` lies when `base` has moved to
`other`. -/
def Shifted (base other : Address) : Option Address → Option Address → Prop
  | some a, some b =>
    (b.value.toNat : Int) - a.value.toNat = (other.value.toNat : Int) - base.value.toNat
  | none, none => True
  | some _, none | none, some _ => False

/-- What starts at or below an offset moves with the base. -/
theorem shifted_map {β : Type} (base other : Address) (offset : UInt64)
    (hbase : base.value.toNat + offset.toNat < UInt64.size)
    (hother : other.value.toNat + offset.toNat < UInt64.size) (found : Option β) (start : β → UInt64)
    (hle : ∀ x, found = some x → start x ≤ offset) :
    Shifted base other (found.map fun x => base.add (start x))
      (found.map fun x => other.add (start x)) := by
  cases found with
  | none => trivial
  | some x =>
    have hstart := hle x rfl
    have ha := Address.toNat_add_of_le base offset (start x) hbase hstart
    have hb := Address.toNat_add_of_le other offset (start x) hother hstart
    simp only [Option.map_some, Shifted]
    omega

/-- The frame of an instruction `offset` above the base of a module, before anything is known about it. -/
def freshFrame (c : CodeModule) (offset : UInt64) : StackFrame :=
  { instruction := c.base.add offset, codeModule := some c }

theorem moduleOffset?_freshFrame (c : CodeModule) (offset : UInt64)
    (h : c.base.value.toNat + offset.toNat < UInt64.size) :
    (freshFrame c offset).moduleOffset? = some offset := by
  apply (Address.offsetFrom?_eq_some_iff _ _ _).mpr
  exact (Address.toNat_add_of_le c.base offset offset h UInt64.le_rfl).symm

/-- At the same offset of a module, wherever it is mapped and whatever else is known of it, the queries
answer alike. The addresses of the function and the source line move by exactly as much as the module. -/
theorem queries_relocated (m : TextModule) (c d : CodeModule) (offset : UInt64)
    (hc : c.base.value.toNat + offset.toNat < UInt64.size)
    (hd : d.base.value.toNat + offset.toNat < UInt64.size) :
    let layout := TextModule.backend.layout m
    let rules := TextModule.backend.rules m
    let here := TextModule.backend.lookUp m (freshFrame c offset)
    let there := TextModule.backend.lookUp m (freshFrame d offset)
    layout (freshFrame c offset) = layout (freshFrame d offset) ∧
    rules (freshFrame c offset) = rules (freshFrame d offset) ∧
    here.functionName = there.functionName ∧ here.sourceFile = there.sourceFile ∧
    here.sourceLine = there.sourceLine ∧
    Shifted c.base d.base here.functionBase there.functionBase ∧
    Shifted c.base d.base here.sourceLineBase there.sourceLineBase := by
  intro layout rules here there
  have hoffset := moduleOffset?_freshFrame c offset hc
  have hoffset' := moduleOffset?_freshFrame d offset hd
  have hhere : here = m.tables.attach c.base offset (freshFrame c offset) :=
    m.tables.lookUp_unresolved (freshFrame c offset) c offset rfl hoffset
  have hthere : there = m.tables.attach d.base offset (freshFrame d offset) :=
    m.tables.lookUp_unresolved (freshFrame d offset) d offset rfl hoffset'
  have hquery {β : Type} (answer? : UInt64 → Option β) :
      (freshFrame c offset).moduleOffset?.bind answer? = (freshFrame d offset).moduleOffset?.bind answer? := by
    rw [hoffset, hoffset']
  have hrefused : m.tables.refusedRuleSets (freshFrame c offset) =
      m.tables.refusedRuleSets (freshFrame d offset) := by
    unfold Tables.refusedRuleSets
    rw [hquery]
  refine ⟨hquery m.tables.layoutAt?, ?_, ?_, ?_, ?_, ?_, ?_⟩
  · exact congrArg₂ Logged.mk (hquery m.tables.rulesAt?) (congrArg (List.map _) hrefused)
  · rw [hhere, hthere]
    rfl
  · rw [hhere, hthere]
    rfl
  · rw [hhere, hthere]
    rfl
  · rw [hhere, hthere]
    exact shifted_map c.base d.base offset hc hd _ _ (m.tables.base_le_of_symbol? offset)
  · rw [hhere, hthere]
    exact shifted_map c.base d.base offset hc hd _ _ (m.tables.base_le_of_line? offset)

/-- A file with a function that reaches up to the offset 1FFF. -/
def highFunctionFile : SymbolBuffer where
  content :=
    ["FILE 1 a.c", "FUNC 1ff0 10 4 f", "1ff8 8 7 1", "STACK CFI INIT 1ff0 10 .cfa: $rsp 8 + .ra: .cfa 8 - ^",
      "STACK CFI 1fff .cfa: $rsp 10 +"].flatMap fun line => (SymbolBuffer.ofText (line ++ "\n")).content

/-- At the least base there is, and at the one where the instruction has the greatest address. -/
theorem queries_relocated_highFunctionFile :
    let m := (TextModule.backend.parse (TextModule.backend.create "m") highFunctionFile).loaded
    let low : CodeModule := ⟨"a.exe", ⟨0⟩, 0x2000, none, none, none⟩
    let high : CodeModule := ⟨"b.exe", ⟨0xFFFFFFFFFFFFE000⟩, 1, some "b.pdb", none, none⟩
    let here := TextModule.backend.lookUp m (freshFrame low 0x1FFF)
    let there := TextModule.backend.lookUp m (freshFrame high 0x1FFF)
    low.base.value.toNat + (0x1FFF : UInt64).toNat < UInt64.size ∧
    high.base.value.toNat + (0x1FFF : UInt64).toNat < UInt64.size ∧
    TextModule.backend.rules m (freshFrame low 0x1FFF) =
      TextModule.backend.rules m (freshFrame high 0x1FFF) ∧
    (TextModule.backend.rules m (freshFrame high 0x1FFF)).value ≠ none ∧
    here.sourceLine = there.sourceLine ∧ there.sourceLine = some 7 ∧
    Shifted low.base high.base here.functionBase there.functionBase ∧
    there.functionBase = some ⟨0xFFFFFFFFFFFFFFF0⟩ ∧
    there.instruction = ⟨0xFFFFFFFFFFFFFFFF⟩ := by
  intro m low high here there
  have hlow : low.base.value.toNat + (0x1FFF : UInt64).toNat < UInt64.size := by decide
  have hhigh : high.base.value.toNat + (0x1FFF : UInt64).toNat < UInt64.size := by decide
  obtain ⟨-, hrules, -, -, hline, hbase, -⟩ := queries_relocated m low high 0x1FFF hlow hhigh
  obtain ⟨hsome, hseven, hfunction⟩ : (TextModule.backend.rules m (freshFrame high 0x1FFF)).value ≠ none ∧
      there.sourceLine = some 7 ∧ there.functionBase = some ⟨0xFFFFFFFFFFFFFFF0⟩ := by decide +kernel
  have htop : there.instruction = ⟨0xFFFFFFFFFFFFFFFF⟩ := by decide +kernel
  exact ⟨hlow, hhigh, hrules, hsome, hline, hseven, hbase, hfunction, htop⟩

end SymbolFile

end Symbolication
