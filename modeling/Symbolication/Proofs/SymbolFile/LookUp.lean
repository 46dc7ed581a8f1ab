import Symbolication.Proofs.SymbolFile.Contents
import Symbolication.Resolver.Backend

/-!
Looking up an address in a module is reading the whole file: the tables that a symbol file leaves in a
fresh module give every frame the function, line and file that the records of the file give it.
-/

namespace Symbolication.SymbolFile

namespace FunctionBlock

theorem find?_function_lines (b : FunctionBlock) (offset : UInt64) :
    b.function.lines.find? offset = b.lineAt? offset :=
  RangeMap.find?_offerAll_empty b.lines offset

end FunctionBlock

namespace Tables.Hold

variable {t : Tables} {rs : List Record}

theorem functions_eq (h : t.Hold rs) :
    t.functions = (∅ : RangeMap Function).offerAll
      (((functionBlocks rs).map FunctionBlock.range).map (Range.map FunctionBlock.function)) := by
  rw [h.functions, List.map_map]
  rfl

theorem mem_toList_functions (h : t.Hold rs) (f : Range Function) :
    f ∈ t.functions.toList ↔ ∃ g ∈ keptFunctions rs, g.map FunctionBlock.function = f := by
  rw [h.functions_eq, RangeMap.mem_toList_offerAll_empty, Range.keep_map, List.mem_map]
  rfl

theorem find?_functions (h : t.Hold rs) (offset : UInt64) :
    t.functions.find? offset =
      ((keptFunctions rs).find? (·.covers offset)).map (Range.map FunctionBlock.function) := by
  rw [h.functions_eq, RangeMap.find?_offerAll_empty, Range.keep_map, List.find?_map]
  rfl

theorem mem_publicSymbols (h : t.Hold rs) (p : UInt64) (symbol : PublicSymbol) :
    (p, symbol) ∈ t.publicSymbols.entries ↔ p ≠ 0 ∧ firstPublic? rs p = some symbol := by
  rw [← OrderedMap.get?_eq_some_iff, h.publicSymbols]
  by_cases hp : p = 0 <;> simp [hp]

theorem mem_publicAddresses (h : t.Hold rs) (p offset : UInt64) :
    p ∈ publicAddresses rs offset ↔
      p ≤ offset ∧ ∃ symbol, (p, symbol) ∈ t.publicSymbols.entries := by
  have hfirst : (∃ symbol, firstPublic? rs p = some symbol) ↔
      p ∈ rs.filterMap Record.publicAddress? := by
    rw [← Option.isSome_iff_exists, firstPublic?, List.findSome?_isSome_iff, List.mem_filterMap]
    apply exists_congr
    intro r
    apply and_congr_right
    intro _
    cases r <;> simp [Record.publicAt?, Record.publicAddress?]
  simp only [publicAddresses, List.mem_filter, h.mem_publicSymbols, decide_eq_true_iff,
    exists_and_left, hfirst]
  constructor
  · intro hp
    obtain ⟨hmem, hzero, hle⟩ := hp
    exact ⟨hle, hzero, hmem⟩
  · intro hp
    obtain ⟨hle, hzero, hmem⟩ := hp
    exact ⟨hmem, hzero, hle⟩

/-- The greatest key of the table at or below `offset` is the greatest address of the records. -/
theorem nearestPublic?_eq (h : t.Hold rs) (offset : UInt64) :
    nearestPublic? rs offset = (t.publicSymbols.atOrBelow? offset).map Prod.fst := by
  unfold nearestPublic?
  cases hbelow : t.publicSymbols.atOrBelow? offset with
  | none =>
    have habove := OrderedMap.atOrBelow?_eq_none_iff.mp hbelow
    have hempty : publicAddresses rs offset = [] := by
      rw [List.eq_nil_iff_forall_not_mem]
      intro p hp
      obtain ⟨hle, symbol, hmem⟩ := (h.mem_publicAddresses p offset).mp hp
      exact (OrderedMap.compare_ne_gt_iff p offset).mpr hle (habove _ hmem)
    rw [hempty]
    rfl
  | some e =>
    obtain ⟨p, symbol⟩ := e
    obtain ⟨hmem, hle, hmax⟩ := OrderedMap.atOrBelow?_eq_some_iff.mp hbelow
    have hp : p ∈ publicAddresses rs offset :=
      (h.mem_publicAddresses p offset).mpr ⟨(OrderedMap.compare_ne_gt_iff p offset).mp hle, symbol, hmem⟩
    have hgreatest (q : UInt64) (hq : q ∈ publicAddresses rs offset) : q.toNat ≤ p.toNat := by
      obtain ⟨hqle, other, hqmem⟩ := (h.mem_publicAddresses q offset).mp hq
      rcases hmax _ hqmem ((OrderedMap.compare_ne_gt_iff q offset).mpr hqle) with heq | hlt
      · have hqp : q = p := congrArg Prod.fst heq
        exact Nat.le_of_eq (congrArg UInt64.toNat hqp)
      · exact Nat.le_of_lt ((OrderedMap.compare_eq_lt_iff q p).mp hlt)
    have htop : (publicAddresses rs offset).all (· ≤ p) = true := by
      rw [List.all_eq_true]
      intro q hq
      exact decide_eq_true (hgreatest q hq)
    cases hfind : (publicAddresses rs offset).find? fun q =>
        (publicAddresses rs offset).all (· ≤ q) with
    | none => exact absurd htop (List.find?_eq_none.mp hfind p hp)
    | some q =>
      -- Both are the greatest, so they are equal.
      have hq := hgreatest q (List.mem_of_find?_eq_some hfind)
      have hqtop := List.find?_some (p := fun q => (publicAddresses rs offset).all (· ≤ q)) hfind
      have hpq : p.toNat ≤ q.toNat := of_decide_eq_true (List.all_eq_true.mp hqtop p hp)
      have heq : q = p := UInt64.toNat_inj.mp (Nat.le_antisymm hq hpq)
      rw [heq]
      rfl

theorem any_nearest?_functions (h : t.Hold rs) (p offset : UInt64) :
    (t.functions.nearest? offset).any (fun f => p ≤ f.base) =
      (keptFunctions rs).any fun f => p ≤ f.base ∧ f.base ≤ offset := by
  rw [Bool.eq_iff_iff, RangeMap.any_nearest?_iff, List.any_eq_true]
  simp only [h.mem_toList_functions, decide_eq_true_iff]
  constructor
  · intro hex
    obtain ⟨f, ⟨g, hg, rfl⟩, hf⟩ := hex
    exact ⟨g, hg, hf⟩
  · intro hex
    obtain ⟨g, hg, hf⟩ := hex
    exact ⟨_, ⟨g, hg, rfl⟩, hf⟩

end Tables.Hold

/-- What the tables give for a record. -/
def SymbolRecord.symbol : SymbolRecord → Symbol
  | function block => .function block.head.base block.function
  | publicSymbol address symbol => .publicSymbol address symbol

theorem base_of_mem_keptFunctions (rs : List Record) (f : Range FunctionBlock)
    (hf : f ∈ keptFunctions rs) : f.base = f.value.head.base := by
  obtain ⟨b, -, rfl⟩ := List.mem_map.mp (Range.mem_of_mem_keep _ f hf)
  rfl

namespace Tables.Hold

variable {t : Tables} {rs : List Record}

theorem publicSymbol?_eq (h : t.Hold rs) (offset : UInt64) :
    t.publicSymbol? (t.functions.nearest? offset) offset =
      ((nearestPublic? rs offset).bind fun p =>
        if (keptFunctions rs).any fun f => p ≤ f.base ∧ f.base ≤ offset then none
        else (firstPublic? rs p).map (.publicSymbol p)) := by
  rw [publicSymbol?, h.nearestPublic?_eq]
  cases hbelow : t.publicSymbols.atOrBelow? offset with
  | none => rfl
  | some e =>
    obtain ⟨p, symbol⟩ := e
    have hmem := (OrderedMap.atOrBelow?_eq_some_iff.mp hbelow).1
    have hfirst := ((h.mem_publicSymbols p symbol).mp hmem).2
    simp only [Option.map_some, Option.bind_some, hfirst, h.any_nearest?_functions]

/-- The symbol of an offset is that of the record which names the offset. -/
theorem symbol?_eq (h : t.Hold rs) (offset : UInt64) :
    t.symbol? offset = (symbolRecord? rs offset).map SymbolRecord.symbol := by
  have hfind : (t.functions.nearest? offset).filter (·.covers offset) =
      ((keptFunctions rs).find? (·.covers offset)).map (Range.map FunctionBlock.function) :=
    h.find?_functions offset
  unfold symbol? symbolRecord?
  dsimp only
  rw [hfind, h.publicSymbol?_eq]
  cases hf : (keptFunctions rs).find? (·.covers offset) with
  | some f =>
    have hbase := base_of_mem_keptFunctions rs f (List.mem_of_find?_eq_some hf)
    simp only [Option.map_some, SymbolRecord.symbol, Range.map, hbase]
  | none =>
    cases nearestPublic? rs offset with
    | none => rfl
    | some p =>
      simp only [Option.map_none, Option.bind_some]
      split
      · rfl
      · rw [Option.map_map]
        rfl

/-- Without a file name of its own a frame gets the one that the records give, if any. -/
theorem fillLine_eq (h : t.Hold rs) (block : FunctionBlock) (base : Address) (offset : UInt64)
    (frame : StackFrame) (hfile : frame.sourceFile = none) :
    t.fillLine block.function base offset frame =
      match block.lineAt? offset with
      | none => frame
      | some r =>
        { frame with
          sourceFile := lastFileName? rs r.value.file
          sourceLine := some r.value.line
          sourceLineBase := some (base.add r.base) } := by
  rw [fillLine, block.find?_function_lines]
  cases block.lineAt? offset with
  | none => rfl
  | some r => simp only [h.fileName?, hfile, Option.or_none]

theorem lookUp_eq_resolved (h : t.Hold rs) (m : CodeModule) (instruction : Address)
    (trust : FrameTrust) (offset : UInt64) (hoffset : instruction.offsetFrom? m.base = some offset) :
    t.lookUp { instruction, codeModule := some m, trust } =
      resolved rs m.base offset { instruction, codeModule := some m, trust } := by
  have hmodule : (StackFrame.mk instruction (some m) none none none none none trust).moduleOffset? =
      some offset := hoffset
  rw [lookUp, hmodule, resolved]
  simp only [h.symbol?_eq]
  cases hs : symbolRecord? rs offset with
  | none => rfl
  | some s =>
    cases s with
    | publicSymbol address symbol => rfl
    | function block =>
      simp only [Option.map_some, SymbolRecord.symbol, Symbol.name, Symbol.base]
      rw [h.fillLine_eq block m.base offset _ rfl]
      rfl

end Tables.Hold

/-- A fresh module that has accepted a symbol file answers as the records of the file do, on every
frame about whose symbol nothing is known yet. -/
theorem lookUp_loaded_eq_resolved (name : String) (data : SymbolBuffer)
    (hload : (TextModule.backend.parse (TextModule.backend.create name) data).error = none)
    (m : CodeModule) (instruction : Address) (trust : FrameTrust) (offset : UInt64)
    (hoffset : instruction.offsetFrom? m.base = some offset) :
    TextModule.backend.lookUp (TextModule.backend.parse (TextModule.backend.create name) data).loaded
        { instruction, codeModule := some m, trust } =
      resolved (recordsOf (Utf8.decodeLossy data.text)) m.base offset
        { instruction, codeModule := some m, trust } := by
  have haccepted : ((∅ : Tables).loadText (Utf8.decodeLossy data.text)).error = none :=
    Option.map_eq_none_iff.mp hload
  exact (hold_of_accepted _ haccepted).lookUp_eq_resolved m instruction trust offset hoffset

/-- A file in which one function is shadowed by an earlier one and one file number has two names. -/
def shadowingFile : SymbolBuffer :=
  .ofText "FILE 1 a\nFUNC 10 8 0 f\n12 4 7 1\nFUNC 14 8 0 g\n14 2 9 1\nFILE 1 b\nPUBLIC 14 0 p\n"

theorem lookUp_shadowingFile :
    (TextModule.backend.parse (TextModule.backend.create "m") shadowingFile).error = none ∧
    Address.offsetFrom? ⟨0x4014⟩ ⟨0x4000⟩ = some 0x14 ∧
    TextModule.backend.lookUp
        (TextModule.backend.parse (TextModule.backend.create "m") shadowingFile).loaded
        { instruction := ⟨0x4014⟩, codeModule := some ⟨"m", ⟨0x4000⟩, 0x100, none, none, none⟩ } =
      { instruction := ⟨0x4014⟩
        codeModule := some ⟨"m", ⟨0x4000⟩, 0x100, none, none, none⟩
        functionName := some ⟨"f", none, .c⟩
        functionBase := some ⟨0x4010⟩
        sourceFile := some "b"
        sourceLine := some 7
        sourceLineBase := some ⟨0x4012⟩ } := by
  have hload : (TextModule.backend.parse (TextModule.backend.create "m") shadowingFile).error =
      none := by decide +kernel
  refine ⟨hload, by decide, ?_⟩
  rw [lookUp_loaded_eq_resolved "m" shadowingFile hload _ ⟨0x4014⟩ .none 0x14 (by decide)]
  decide +kernel

end Symbolication.SymbolFile
