import Symbolication.Proofs.SymbolFile.Blocks
import Symbolication.Proofs.SymbolFile.FrameLayouts
import Symbolication.Proofs.SymbolFile.FrameRules
import Symbolication.Proofs.SymbolFile.Joined

/-!
Symbol files whose blocks change places. Each table has its own rule for records that claim the same
place in it: the first one stays, or the last one does. Where no two records of a file claim the same
place, none of these rules applies, and the order of the blocks makes no difference.
-/

namespace Symbolication.SymbolFile

namespace Record

def header? : Record → Option Header
  | .header contents => some contents
  | _ => none

/-- The name that the record gives to a file number. -/
def fileEntry? : Record → Option (UInt32 × String)
  | .file number name => some (number, name)
  | _ => none

/-- The public symbol of the record with its address, unless that is 0. -/
def publicEntry? : Record → Option (UInt64 × PublicSymbol)
  | .publicSymbol address symbol => if address = 0 then none else some (address, symbol)
  | _ => none

/-- The head of the function that the record begins, with its range. -/
def functionRange? : Record → Option (Range FunctionHead)
  | .function head => some ⟨head.base, head.size, head⟩
  | _ => none

end Record

/-- No two records claim the same place in a table. -/
structure Independent (rs : List Record) : Prop where
  functions : Range.Separate (rs.filterMap Record.functionRange?)
  initialRules : Range.Separate (rs.filterMap Record.initialRules?)
  frameDataLayouts : Range.Separate (rs.filterMap (Record.layoutOfKind? .frameData))
  fpoLayouts : Range.Separate (rs.filterMap (Record.layoutOfKind? .fpo))
  publicSymbols : ((rs.filterMap Record.publicEntry?).map Prod.fst).Nodup
  ruleChanges : ((ruleChanges rs).map Prod.fst).Nodup
  files : ((rs.filterMap Record.fileEntry?).map Prod.fst).Nodup

attribute [ext] Tables

namespace Tables

theorem put_header (t : Tables) (r : Record) :
    (t.put r).header = r.header?.elim t.header some := by
  unfold put addPublicSymbol
  split <;> (try split) <;> rfl

theorem put_fileEntry (t : Tables) (r : Record) :
    (t.put r).files = r.fileEntry?.elim t.files fun e => t.files.insert e.1 e.2 := by
  unfold put addPublicSymbol
  split <;> (try split) <;> rfl

theorem put_publicEntry (t : Tables) (r : Record) :
    (t.put r).publicSymbols =
      r.publicEntry?.elim t.publicSymbols fun e => t.publicSymbols.insertNew e.1 e.2 := by
  cases r with
  | publicSymbol address symbol =>
    simp only [put, addPublicSymbol, Record.publicEntry?]
    split <;> rfl
  | layout base size layout =>
    simp only [put]
    split <;> rfl
  | ignored | header | file | function | line | mismatchedLayout | cfiInit | cfiDelta => rfl

/-- A table looks alike after the records of two files if what they say to it has the same effect. -/
theorem foldl_put_table_congr {β γ : Type} (table : Tables → β) (pick? : Record → Option γ)
    (store : β → γ → β)
    (hput : ∀ t r, table (t.put r) = (pick? r).elim (table t) (store (table t)))
    {rs ts : List Record}
    (h : (rs.filterMap pick?).foldl store (table ∅) = (ts.filterMap pick?).foldl store (table ∅)) :
    table (rs.foldl put ∅) = table (ts.foldl put ∅) := by
  rw [foldl_put_table table pick? store hput, foldl_put_table table pick? store hput, h]

theorem foldl_put_functions (t : Tables) (rs : List Record) :
    (rs.foldl put t).functions = t.functions := by
  induction rs generalizing t with
  | nil => rfl
  | cons r rs ih => rw [List.foldl_cons, ih, put_functions]

end Tables

/-- There is no header after the first record of a file that is accepted. -/
theorem no_header_in_tail (rs : List Record) (h : placed false false rs = true) :
    ∀ r ∈ rs.tail, r.kind ≠ .header := by
  intro r hr hkind
  cases rs with
  | nil => exact absurd hr List.not_mem_nil
  | cons first rest =>
    obtain ⟨front, back, hsplit⟩ := List.append_of_mem hr
    have hplaced := (WellPlaced.iff_placed (first :: rest)).mpr h
    have hfront := hplaced.headerFirst (first :: front) back r (congrArg (first :: ·) hsplit) hkind
    exact absurd hfront (List.cons_ne_nil first front)

/-- Whichever records change places, there is one header at most, so it stays the last one. -/
theorem filterMap_header?_perm (rs ts : List Record) (hperm : rs.Perm ts)
    (h : placed false false rs = true) :
    rs.filterMap Record.header? = ts.filterMap Record.header? := by
  have hheaders := hperm.filterMap Record.header?
  cases rs with
  | nil => rw [hperm.nil_eq]
  | cons first rest =>
    have hrest : rest.filterMap Record.header? = [] := by
      rw [List.filterMap_eq_nil_iff]
      intro r hr
      have hkind := no_header_in_tail (first :: rest) h r hr
      cases r with
      | header => exact absurd rfl hkind
      | _ => rfl
    cases hfirst : first.header? with
    | none =>
      rw [List.filterMap_cons_none hfirst, hrest] at hheaders ⊢
      exact hheaders.nil_eq
    | some header =>
      rw [List.filterMap_cons_some hfirst, hrest] at hheaders ⊢
      exact (List.perm_singleton.mp hheaders.symm).symm

theorem map_head_functionBlocks (rs : List Record) :
    (functionBlocks rs).map (fun b => b.range.map FunctionBlock.head) =
      rs.filterMap Record.functionRange? := by
  induction rs with
  | nil => rfl
  | cons r rs ih =>
    cases r with
    | function head => exact congrArg (⟨head.base, head.size, head⟩ :: ·) ih
    | ignored | header | file | line | publicSymbol | layout | mismatchedLayout | cfiInit | cfiDelta =>
      exact ih

namespace Independent

variable {rs : List Record}

/-- Records that claim different places fill the tables in any order. -/
theorem foldl_put_eq (h : Independent rs) (ts : List Record) (hperm : rs.Perm ts)
    (hplaced : placed false false rs = true) :
    rs.foldl Tables.put ∅ = ts.foldl Tables.put ∅ := by
  -- One table after the other, each by the policy it has for records in the same place.
  ext1
  · apply Tables.foldl_put_table_congr Tables.header Record.header? (fun _ => some) Tables.put_header
    rw [filterMap_header?_perm rs ts hperm hplaced]
  · apply Tables.foldl_put_table_congr Tables.files Record.fileEntry?
      (fun files e => files.insert e.1 e.2) Tables.put_fileEntry
    exact OrderedMap.foldl_insert_perm _ _ _ (hperm.filterMap _) h.files
  · -- Functions are stored when they are closed, so this table is still empty.
    rw [Tables.foldl_put_functions, Tables.foldl_put_functions]
  · apply Tables.foldl_put_table_congr Tables.publicSymbols Record.publicEntry?
      (fun symbols e => symbols.insertNew e.1 e.2) Tables.put_publicEntry
    exact OrderedMap.foldl_insertNew_perm _ _ _ (hperm.filterMap _) h.publicSymbols
  · apply Tables.foldl_put_table_congr Tables.frameDataLayouts _ _ Tables.put_frameDataLayouts
    exact RangeMap.offerAll_empty_perm (hperm.filterMap _) h.frameDataLayouts
  · apply Tables.foldl_put_table_congr Tables.fpoLayouts _ _ Tables.put_fpoLayouts
    exact RangeMap.offerAll_empty_perm (hperm.filterMap _) h.fpoLayouts
  · apply Tables.foldl_put_table_congr Tables.cfiInitial _ _ Tables.put_cfiInitial
    exact RangeMap.offerAll_empty_perm (hperm.filterMap _) h.initialRules
  · apply Tables.foldl_put_table_congr Tables.cfiDeltas Record.ruleChange?
      (fun deltas e => deltas.insert e.1 e.2) Tables.put_cfiDeltas
    exact OrderedMap.foldl_insert_perm _ _ _ (hperm.filterMap _) h.ruleChanges

theorem separate_functionBlocks (h : Independent rs) :
    Range.Separate ((functionBlocks rs).map fun b => b.range.map FunctionBlock.function) := by
  have hheads : ((functionBlocks rs).map FunctionBlock.range).map (Range.map FunctionBlock.head) =
      rs.filterMap Record.functionRange? := (List.map_map).trans (map_head_functionBlocks rs)
  have hranges : Range.Separate ((functionBlocks rs).map FunctionBlock.range) := by
    rw [← Range.separate_map FunctionBlock.head, hheads]
    exact h.functions
  have hmap := (Range.separate_map FunctionBlock.function _).mpr hranges
  rwa [List.map_map] at hmap

/-- The blocks of a file may come in any order in which the file is accepted. -/
theorem absorb_flatten (h : Independent rs) (bs : List (List Record))
    (hperm : bs.Perm (blocks Record.kind? rs)) (hplaced : placed false false rs = true) :
    (∅ : Tables).absorb bs.flatten = (∅ : Tables).absorb rs := by
  have hrecords := flatten_perm rs bs hperm hplaced
  have hfunctions := (functionBlocks_perm rs bs hperm).map fun b => b.range.map FunctionBlock.function
  unfold Tables.absorb
  -- The other tables look at the records one by one, the function table at whole functions.
  rw [h.foldl_put_eq bs.flatten hrecords.symm hplaced]
  exact congrArg _ (RangeMap.offerAll_empty_perm hfunctions.symm h.separate_functionBlocks).symm

end Independent

theorem mem_tail_filterMap {α β : Type} (f : α → Option β) (as : List α) (b : β)
    (h : b ∈ (as.filterMap f).tail) : b ∈ as.tail.filterMap f := by
  cases as with
  | nil => exact h
  | cons a rest =>
    cases ha : f a with
    | none =>
      rw [List.filterMap_cons_none ha] at h
      exact List.mem_of_mem_tail h
    | some c =>
      rw [List.filterMap_cons_some ha] at h
      exact h

theorem filterMap_recordOfLine?_filter (ls : List (List Char)) :
    (ls.filter (· ≠ [])).filterMap recordOfLine? = ls.filterMap recordOfLine? := by
  rw [List.filterMap_filter]
  congr 1
  funext line
  by_cases hline : line = []
  · rw [hline]
    rfl
  · simp [hline]

/-- The blocks of the records are read from the blocks of the lines. -/
theorem blocks_filterMap_recordOfLine? (ls : List (List Char))
    (h : ∀ line ∈ ls, line ≠ [] → (recordOfLine? line).isSome) :
    blocks Record.kind? (ls.filterMap recordOfLine?) =
      (blocks kindOfLine? (ls.filter (· ≠ []))).map (List.filterMap recordOfLine?) := by
  rw [← filterMap_recordOfLine?_filter ls]
  apply blocks_filterMap kindOfLine? Record.kind? recordOfLine?
  intro line hline
  obtain ⟨hmem, hne⟩ := List.mem_filter.mp hline
  obtain ⟨r, hr⟩ := Option.isSome_iff_exists.mp (h line hmem (of_decide_eq_true hne))
  exact ⟨r, hr, (kindOfLine?_of_recordOfLine? line r hr).symm⟩

/-- The blocks of a symbol file may come in any order if no two of its records claim the same place in a
table and a `MODULE` record stays first: the file is accepted all the same, and the module that it is
loaded into is the same. -/
theorem parse_reordered_blocks (name : String) (data other : SymbolBuffer)
    (bs : List (List (List Char)))
    (hload : (TextModule.backend.parse (TextModule.backend.create name) data).error = none)
    (hindependent : Independent (data.lines.filterMap recordOfLine?))
    (hblocks : bs.Perm (blocks kindOfLine? (data.lines.filter (· ≠ []))))
    (hheader : ∀ line ∈ bs.flatten.tail, firstWord line ≠ "MODULE".toList)
    (hother : other.lines.filter (· ≠ []) = bs.flatten) :
    let parse := TextModule.backend.parse (TextModule.backend.create name)
    (parse other).error = none ∧ (parse other).loaded = (parse data).loaded ∧
    ∀ frame,
      TextModule.backend.lookUp (parse other).loaded frame =
        TextModule.backend.lookUp (parse data).loaded frame ∧
      TextModule.backend.layout (parse other).loaded frame =
        TextModule.backend.layout (parse data).loaded frame ∧
      TextModule.backend.rules (parse other).loaded frame =
        TextModule.backend.rules (parse data).loaded frame := by
  intro parse
  obtain ⟨hall, hplaced⟩ := (parse_error_eq_none_iff _ data).mp hload
  -- From here on the blocks are blocks of records.
  have hperm : (bs.map (List.filterMap recordOfLine?)).Perm
      (blocks Record.kind? (data.lines.filterMap recordOfLine?)) := by
    rw [blocks_filterMap_recordOfLine? data.lines hall]
    exact hblocks.map _
  have hrecords : other.lines.filterMap recordOfLine? =
      (bs.map (List.filterMap recordOfLine?)).flatten := by
    rw [← filterMap_recordOfLine?_filter other.lines, hother, List.filterMap_flatten]
  have hlate : ∀ r ∈ (bs.map (List.filterMap recordOfLine?)).flatten.tail, r.kind ≠ .header := by
    intro r hr
    rw [← List.filterMap_flatten] at hr
    exact no_header_of_lines _ hheader r (mem_tail_filterMap recordOfLine? _ r hr)
  have haccepted : (parse other).error = none := by
    rw [parse_error_eq_none_iff, hrecords]
    refine ⟨?_, placed_of_perm_blocks _ _ hperm hlate⟩
    intro line hline hne
    have hmem : line ∈ bs.flatten := by
      rw [← hother]
      exact List.mem_filter.mpr ⟨hline, decide_eq_true hne⟩
    -- No line is new.
    have hold := (flatten_blocks_perm kindOfLine? (data.lines.filter (· ≠ []))).mem_iff.mp
      (List.mem_append_left _ (hblocks.flatten.mem_iff.mp hmem))
    exact hall line (List.mem_filter.mp hold).1 hne
  have hloaded : (parse other).loaded = (parse data).loaded := by
    rw [loaded_of_accepted _ other haccepted, loaded_of_accepted _ data hload, hrecords]
    have htables := hindependent.absorb_flatten _ hperm hplaced
    exact congrArg (fun tables => { TextModule.backend.create name with tables }) htables
  refine ⟨haccepted, hloaded, ?_⟩
  intro frame
  rw [hloaded]
  exact ⟨rfl, rfl, rfl⟩

/-- A file with two functions; a file name stands between the first one and its line. -/
def twoFunctionsFile : SymbolBuffer where
  content := ["MODULE os cpu id m", "FUNC 10 8 0 f", "FILE 1 a", "12 4 7 1", "PUBLIC 40 0 p",
    "FUNC 20 8 0 g", "STACK CFI 10 r: 1"].flatMap fun line =>
      (SymbolBuffer.ofText (line ++ "\n")).content

/-- The blocks of that file in another order. -/
def reorderedBlocks : List (List (List Char)) :=
  [["MODULE os cpu id m"], ["STACK CFI 10 r: 1"], ["FUNC 20 8 0 g"], ["FILE 1 a"],
    ["FUNC 10 8 0 f", "12 4 7 1"], ["PUBLIC 40 0 p"]].map fun b => b.map String.toList

def reorderedFunctionsFile : SymbolBuffer where
  content := reorderedBlocks.flatten.flatMap fun line =>
    (SymbolBuffer.ofText (String.ofList line ++ "\n")).content

theorem parse_reorderedFunctionsFile :
    let parse := TextModule.backend.parse (TextModule.backend.create "m")
    (parse twoFunctionsFile).error = none ∧
    reorderedBlocks.Perm (blocks kindOfLine? (twoFunctionsFile.lines.filter (· ≠ []))) ∧
    reorderedFunctionsFile.lines.filter (· ≠ []) = reorderedBlocks.flatten ∧
    (parse reorderedFunctionsFile).error = none ∧
    (parse reorderedFunctionsFile).loaded = (parse twoFunctionsFile).loaded ∧
    (parse twoFunctionsFile).loaded.tables.functions.entries.keys = [0x10, 0x20] := by
  intro parse
  have hrecords : twoFunctionsFile.lines.filterMap recordOfLine? =
      [.header ⟨"os", "cpu", "id", "m"⟩, .function ⟨0x10, 8, 0, "f"⟩, .file 1 "a",
        .line 0x12 4 ⟨7, 1⟩, .publicSymbol 0x40 ⟨"p", 0⟩, .function ⟨0x20, 8, 0, "g"⟩,
        .cfiDelta 0x10 "r: 1"] := by decide +kernel
  have hload : (parse twoFunctionsFile).error = none := by decide +kernel
  have hindependent : Independent (twoFunctionsFile.lines.filterMap recordOfLine?) := by
    rw [hrecords]
    constructor <;> decide
  have hblocks : reorderedBlocks.Perm
      (blocks kindOfLine? (twoFunctionsFile.lines.filter (· ≠ []))) := by decide +kernel
  have hheader : ∀ line ∈ reorderedBlocks.flatten.tail, firstWord line ≠ "MODULE".toList := by
    decide +kernel
  have hother : reorderedFunctionsFile.lines.filter (· ≠ []) = reorderedBlocks.flatten := by
    decide +kernel
  obtain ⟨haccepted, hloaded, -⟩ := parse_reordered_blocks "m" twoFunctionsFile reorderedFunctionsFile
    reorderedBlocks hload hindependent hblocks hheader hother
  exact ⟨hload, hblocks, hother, haccepted, hloaded, by decide +kernel⟩

end Symbolication.SymbolFile
