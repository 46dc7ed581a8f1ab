import Symbolication.Proofs.RangeMap.Guarded
import Symbolication.Proofs.SymbolFile.Relocation

/-!
The queries about a frame in arithmetic that does not wrap. What is found for an instruction starts at or
below it, so every distance is a difference of a greater and a smaller offset, the rule changes are those
from a lower key to a higher one, and no address that is written lies above the instruction. This holds
of any tables, so of those that loads leave, and of modules mapped anywhere.
-/

namespace Symbolication.Guarded

open SymbolFile

/-- The address `offset` above a base, which may not lie past the greatest one. -/
def address (base : Address) (offset : UInt64) : Except Fault Address :=
  match base.add? offset with
  | some a => .ok a
  | none => .error .wrappedAddress

/-- An offset up to that of an address leads to an address. -/
theorem address_of_le (base : Address) (offset o : UInt64)
    (h : base.value.toNat + offset.toNat < UInt64.size) (hle : o ≤ offset) :
    address base o = .ok (base.add o) := by
  unfold address Address.add?
  rw [if_pos (base.add_lt_size_of_le offset o h hle)]

section Queries

variable (t : Tables)

/-- The symbol at an offset: the function that covers it, or else a public symbol. -/
def symbol (offset : UInt64) : Except Fault (Option Symbol) :=
  match t.functions.nearest? offset with
  | none => .ok (t.publicSymbol? none offset)
  | some f => (sub offset f.base).map fun distance =>
    if distance < f.size then some (.function f.base f.value)
    else t.publicSymbol? (some f) offset

theorem symbol_eq (offset : UInt64) : symbol t offset = .ok (t.symbol? offset) := by
  unfold symbol Tables.symbol?
  cases hnearest : t.functions.nearest? offset with
  | none => rfl
  | some f =>
    have hle := t.functions.base_le_of_nearest? offset f hnearest
    dsimp only
    rw [sub_of_le hle, Option.filter_some, f.covers_of_base_le offset hle]
    simp only [Except.map, decide_eq_true_iff]
    split <;> rfl

/-- Writes the source line of a function at an offset into a frame. -/
def fillLine (function : Function) (base : Address) (offset : UInt64) (frame : StackFrame) :
    Except Fault StackFrame := do
  match ← find function.lines offset with
  | none => .ok frame
  | some r =>
    let lineBase ← address base r.base
    .ok { frame with
      sourceFile := (t.fileName? r.value.file).or frame.sourceFile
      sourceLine := some r.value.line
      sourceLineBase := some lineBase }

theorem fillLine_eq (function : Function) (base : Address) (offset : UInt64) (frame : StackFrame)
    (h : base.value.toNat + offset.toNat < UInt64.size) :
    fillLine t function base offset frame = .ok (t.fillLine function base offset frame) := by
  unfold fillLine Tables.fillLine
  rw [find_eq]
  dsimp only [bind, Except.bind]
  cases hline : function.lines.find? offset with
  | none => rfl
  | some r =>
    have hle := function.lines.base_le_of_find? offset r hline
    dsimp only
    rw [address_of_le base offset r.base h hle]

/-- Looks up the instruction of a frame. -/
def lookUp (frame : StackFrame) : Except Fault StackFrame :=
  match frame.codeModule, frame.moduleOffset? with
  | some c, some offset => do
    match ← symbol t offset with
    | none => .ok frame
    | some s =>
      let functionBase ← address c.base s.base
      let named := { frame with
        functionName := some (.ofRaw s.name)
        functionBase := some functionBase }
      match s with
      | .function _ function => fillLine t function c.base offset named
      | .publicSymbol .. => .ok named
  | _, _ => .ok frame

/-- The instruction of a frame lies as far above the base of the frame's module as its offset says. -/
theorem toNat_instruction (frame : StackFrame) (c : CodeModule) (offset : UInt64)
    (hc : frame.codeModule = some c) (hoffset : frame.moduleOffset? = some offset) :
    c.base.value.toNat + offset.toNat = frame.instruction.value.toNat := by
  rw [StackFrame.moduleOffset?, hc] at hoffset
  exact (Address.offsetFrom?_eq_some_iff _ _ _).mp hoffset

theorem offset_fits (frame : StackFrame) (c : CodeModule) (offset : UInt64)
    (hc : frame.codeModule = some c) (hoffset : frame.moduleOffset? = some offset) :
    c.base.value.toNat + offset.toNat < UInt64.size := by
  rw [toNat_instruction frame c offset hc hoffset]
  exact frame.instruction.value.toNat_lt

theorem lookUp_eq (frame : StackFrame) : lookUp t frame = .ok (t.lookUp frame) := by
  unfold lookUp Tables.lookUp
  cases hc : frame.codeModule with
  | none => rfl
  | some c =>
    cases hoffset : frame.moduleOffset? with
    | none => rfl
    | some offset =>
      -- The instruction is an address, so everything up to its offset is one above the base.
      have hfits := offset_fits frame c offset hc hoffset
      dsimp only
      rw [symbol_eq]
      dsimp only [bind, Except.bind]
      cases hsymbol : t.symbol? offset with
      | none => rfl
      | some s =>
        have hle := t.base_le_of_symbol? offset s hsymbol
        dsimp only
        rw [address_of_le c.base offset s.base hfits hle]
        cases s with
        | function base function => exact fillLine_eq t function c.base offset _ hfits
        | publicSymbol a symbol => rfl

/-- The layout of a frame. -/
def layoutAt (offset : UInt64) : Except Fault (Option FrameLayout) := do
  match ← find t.frameDataLayouts offset with
  | some r => .ok (some r.value)
  | none =>
    match ← find t.fpoLayouts offset with
    | some r => .ok (some r.value)
    | none => (symbol t offset).map (·.map fun s => .ofParameterSize s.parameterSize)

def layout (frame : StackFrame) : Except Fault (Option FrameLayout) :=
  match frame.moduleOffset? with
  | none => .ok none
  | some offset => layoutAt t offset

theorem layout_eq (frame : StackFrame) : layout t frame = .ok (t.layout? frame) := by
  unfold layout Tables.layout?
  cases frame.moduleOffset? with
  | none => rfl
  | some offset =>
    dsimp only [Option.bind_some]
    unfold layoutAt Tables.layoutAt?
    rw [find_eq, find_eq, symbol_eq]
    cases t.frameDataLayouts.find? offset with
    | some r => rfl
    | none =>
      cases t.fpoLayouts.find? offset with
      | some r => rfl
      | none => rfl

/-- The rules that recover the caller's registers. The changes are looked up from the start of the
initial rules to the offset. -/
def rulesAt (offset : UInt64) : Except Fault (Option Cfi.RecoveryRules) := do
  match ← find t.cfiInitial offset with
  | none => .ok none
  | some r =>
    if (Cfi.deliver r.value).error.isSome then .ok none
    else
      let deltas ← between t.cfiDeltas r.base offset
      .ok (some ((deltas.map Prod.snd).foldl .applyRuleSet ((∅ : Cfi.RecoveryRules).applyRuleSet r.value)))

def rules (frame : StackFrame) : Except Fault (Option Cfi.RecoveryRules) :=
  match frame.moduleOffset? with
  | none => .ok none
  | some offset => rulesAt t offset

theorem rules_eq (frame : StackFrame) : rules t frame = .ok (t.rules? frame) := by
  unfold rules Tables.rules?
  cases frame.moduleOffset? with
  | none => rfl
  | some offset =>
    dsimp only [Option.bind_some]
    unfold rulesAt Tables.rulesAt? Tables.ruleSetsAt?
    rw [find_eq]
    dsimp only [bind, Except.bind]
    cases hinitial : t.cfiInitial.find? offset with
    | none => rfl
    | some r =>
      -- The initial rules start at or below the offset, so the keys run upwards.
      have hle := t.cfiInitial.base_le_of_find? offset r hinitial
      dsimp only [Option.map_some]
      rw [between_of_le t.cfiDeltas hle]
      split <;> rfl

/-- What starts at or below the instruction of a frame in its module is written between the two. -/
theorem written_between (frame : StackFrame) (c : CodeModule) (offset o : UInt64)
    (hc : frame.codeModule = some c) (hoffset : frame.moduleOffset? = some offset) (hle : o ≤ offset) :
    c.base.value ≤ (c.base.add o).value ∧ (c.base.add o).value ≤ frame.instruction.value := by
  have hinstruction := toNat_instruction frame c offset hc hoffset
  have hfits := offset_fits frame c offset hc hoffset
  have hsum := c.base.toNat_add_of_le offset o hfits hle
  have hbelow := UInt64.le_iff_toNat_le.mp hle
  rw [UInt64.le_iff_toNat_le, UInt64.le_iff_toNat_le, hsum]
  omega

end Queries

/-- The address lies between the base of the frame's module and the instruction of the frame. -/
def WithinReach (frame : StackFrame) (a : Address) : Prop :=
  ∃ c, frame.codeModule = some c ∧ c.base.value ≤ a.value ∧ a.value ≤ frame.instruction.value

section Written

variable (t : Tables) (frame : StackFrame)

/-- A look-up that attaches a symbol writes it with an address that is within reach. -/
theorem functionBase_within_reach (h : (t.lookUp frame.unresolved).functionName ≠ none) :
    ∃ a, (t.lookUp frame).functionBase = some a ∧ WithinReach frame a := by
  have hfound := t.lookUp_eq_withSourceOf frame
  rw [if_neg h] at hfound
  rcases t.lookUp_unresolved_cases frame with hfresh | ⟨c, offset, hc, hoffset, hfresh⟩
  · rw [hfresh] at h
    exact absurd rfl h
  · rw [hfresh] at h hfound
    cases hsymbol : t.symbol? offset with
    | none => simp [Tables.attach, hsymbol] at h
    | some s =>
      have hle := t.base_le_of_symbol? offset s hsymbol
      refine ⟨c.base.add s.base, ?_, c, hc, written_between frame c offset s.base hc hoffset hle⟩
      simp [hfound, StackFrame.withSourceOf, Tables.attach, hsymbol]

/-- So does one that attaches a source line. -/
theorem sourceLineBase_within_reach (h : (t.lookUp frame.unresolved).sourceLine ≠ none) :
    ∃ a, (t.lookUp frame).sourceLineBase = some a ∧ WithinReach frame a := by
  rcases t.lookUp_unresolved_cases frame with hfresh | ⟨c, offset, hc, hoffset, hfresh⟩
  · rw [hfresh] at h
    exact absurd rfl h
  · cases hline : t.line? offset with
    | none => simp [hfresh, Tables.attach, hline] at h
    | some r =>
      -- A line is attached with a function only.
      have hname : (t.lookUp frame.unresolved).functionName ≠ none := by
        cases hsymbol : t.symbol? offset with
        | none => simp [Tables.line?, hsymbol] at hline
        | some s => simp [hfresh, Tables.attach, hsymbol]
      have hfound := t.lookUp_eq_withSourceOf frame
      have hle := t.base_le_of_line? offset r hline
      rw [if_neg hname, hfresh] at hfound
      refine ⟨c.base.add r.base, ?_, c, hc, written_between frame c offset r.base hc hoffset hle⟩
      simp [hfound, StackFrame.withSourceOf, Tables.attach, hline]

end Written

/-- No map of ranges and no query about a frame meets a fault. What a look-up writes lies between the base
of the frame's module and the instruction. -/
theorem queries_meet_no_fault (m : TextModule) (frame : StackFrame) :
    (∀ (α : Type) (ranges : RangeMap α) (r : Range α), store ranges r = .ok (ranges.store? r)) ∧
    (∀ (α : Type) (ranges : RangeMap α) (a : UInt64), find ranges a = .ok (ranges.find? a)) ∧
    (∀ offset, symbol m.tables offset = .ok (m.tables.symbol? offset)) ∧
    lookUp m.tables frame = .ok (TextModule.backend.lookUp m frame) ∧
    layout m.tables frame = .ok (TextModule.backend.layout m frame) ∧
    rules m.tables frame = .ok (TextModule.backend.rules m frame).value ∧
    let fresh := TextModule.backend.lookUp m frame.unresolved
    let found := TextModule.backend.lookUp m frame
    (fresh.functionName ≠ none → ∃ a, found.functionBase = some a ∧ WithinReach frame a) ∧
    (fresh.sourceLine ≠ none → ∃ a, found.sourceLineBase = some a ∧ WithinReach frame a) := by
  exact ⟨fun _ => store_eq, fun _ => find_eq, symbol_eq m.tables, lookUp_eq m.tables frame,
    layout_eq m.tables frame, rules_eq m.tables frame, functionBase_within_reach m.tables frame,
    sourceLineBase_within_reach m.tables frame⟩

/-- A file with ranges at both ends of the offsets, and a range past the greatest one. -/
def edgeFile : SymbolBuffer where
  content :=
    ["FUNC ffffffffffffffff 1 0 f", "ffffffffffffffff 1 7 1", "FUNC 0 1 0 g", "FUNC fffffffffffffffe 3 0 h",
      "STACK CFI INIT ffffffffffffffff 1 .cfa: $rsp 8 + .ra: .cfa 8 - ^",
      "STACK CFI ffffffffffffffff .cfa: $rsp 10 +"].flatMap fun line =>
        (SymbolBuffer.ofText (line ++ "\n")).content

/-- A frame at the greatest address, in a module that is mapped at the least one. -/
def edgeFrame : StackFrame where
  instruction := ⟨0xFFFFFFFFFFFFFFFF⟩
  codeModule := some ⟨"a.exe", ⟨0⟩, 0, none, none, none⟩

theorem queries_meet_no_fault_edgeFile :
    let m := (TextModule.backend.parse (TextModule.backend.create "m") edgeFile).loaded
    let fresh := TextModule.backend.lookUp m edgeFrame.unresolved
    let found := TextModule.backend.lookUp m edgeFrame
    fresh.functionName ≠ none ∧ fresh.sourceLine ≠ none ∧
    (∃ a, found.functionBase = some a ∧ WithinReach edgeFrame a) ∧
    (∃ a, found.sourceLineBase = some a ∧ WithinReach edgeFrame a) ∧
    found.functionBase = some ⟨0xFFFFFFFFFFFFFFFF⟩ ∧
    rules m.tables edgeFrame = .ok (TextModule.backend.rules m edgeFrame).value ∧
    (TextModule.backend.rules m edgeFrame).value ≠ none ∧
    m.tables.functions.entries.keys = [0, 0xFFFFFFFFFFFFFFFF] := by
  intro m fresh found
  obtain ⟨hname, hline, hbase, hsome, hkeys⟩ : fresh.functionName ≠ none ∧ fresh.sourceLine ≠ none ∧
      found.functionBase = some ⟨0xFFFFFFFFFFFFFFFF⟩ ∧
      (TextModule.backend.rules m edgeFrame).value ≠ none ∧
      m.tables.functions.entries.keys = [0, 0xFFFFFFFFFFFFFFFF] := by decide +kernel
  obtain ⟨-, -, -, -, -, hrules, hfunction, hsource⟩ := queries_meet_no_fault m edgeFrame
  exact ⟨hname, hline, hfunction hname, hsource hline, hbase, hrules, hsome, hkeys⟩

end Symbolication.Guarded
