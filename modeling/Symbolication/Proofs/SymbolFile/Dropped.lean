import Symbolication.Proofs.RangeMap.Refused
import Symbolication.Proofs.SymbolFile.Outcome
import Symbolication.Proofs.SymbolFile.Reordering

/-!
What becomes of the functions and initial rule sets of a file. Each is offered to its table once, in the
order of the file, and what the table refuses is warned of. A function is offered only when a later
record or the end of the file closes it, so what is counted on the way is the state with the open
function closed.
-/

namespace Symbolication.SymbolFile

namespace LoadNotice

def isDroppedFunction : LoadNotice → Bool
  | droppedFunction .. => true
  | _ => false

def isDroppedCfiInit : LoadNotice → Bool
  | droppedCfiInit _ => true
  | _ => false

/-- The warning about a function that is not stored. -/
def ofFunction (r : Range Function) : LoadNotice := .droppedFunction r.value.name r.base

/-- The warning about an initial rule set that is not stored. -/
def ofCfiInit (r : Range String) : LoadNotice := .droppedCfiInit r.base

end LoadNotice

namespace Loading

/-- What the load has had to say of one sort so far, in order. -/
def said (s : Loading) (sort : LoadNotice → Bool) : List LoadNotice := s.notices.reverse.filter sort

theorem said_say (s : Loading) (n : LoadNotice) (sort : LoadNotice → Bool) :
    (s.say n).said sort = s.said sort ++ [n].filter sort := by
  unfold said say
  rw [List.reverse_cons, List.filter_append]

theorem said_say_of_not (s : Loading) (n : LoadNotice) (sort : LoadNotice → Bool)
    (h : sort n = false) : (s.say n).said sort = s.said sort := by
  rw [said_say, List.filter_singleton, h]
  exact List.append_nil _

/-- Closing the open function offers it to the table, and warns if it is refused. -/
theorem close_said (s : Loading) (sort : LoadNotice → Bool) :
    s.close.said sort = s.said sort ++ ((s.tables.functions.refused
      (s.openFunction.toList.map OpenFunction.range)).map LoadNotice.ofFunction).filter sort := by
  unfold close
  cases hopen : s.openFunction with
  | none => simp
  | some f =>
    cases hstore : s.tables.functions.store? ⟨f.base, f.size, f.function⟩ with
    | none =>
      simp only [hstore]
      rw [said_say]
      simp [RangeMap.refused, OpenFunction.range, hstore, said, LoadNotice.ofFunction]
    | some functions =>
      simp [RangeMap.refused, OpenFunction.range, hstore, said]

section Record

variable (sort : LoadNotice → Bool) (hline : ∀ number, sort (.droppedLine number) = false)
  (hlayout : ∀ base, sort (.droppedLayout base) = false)
  (hmismatched : ∀ base type hasProgram, sort (.mismatchedLayout base type hasProgram) = false)

include hline in
theorem addLine_said (s : Loading) (number : Nat) (r : Range SourceLine) :
    (s.addLine number r).said sort = s.said sort := by
  unfold addLine
  split
  · rfl
  · split
    · rfl
    · split
      · rfl
      · exact said_say_of_not _ _ sort (hline number)

include hlayout in
theorem addLayout_said (s : Loading) (r : Range FrameLayout) :
    (s.addLayout r).said sort = s.said sort := by
  unfold addLayout
  split
  · split
    · rfl
    · exact said_say_of_not _ _ sort (hlayout r.base)
  · split
    · rfl
    · exact said_say_of_not _ _ sort (hlayout r.base)
  · rfl

include hline hlayout hmismatched

/-- Of the records themselves only initial rule sets are offered to a table that warns of refusals. -/
theorem record_said (s : Loading) (number : Nat) (r : Record) :
    (s.record number r).said sort = s.said sort ++ ((s.tables.cfiInitial.refused
      r.initialRules?.toList).map LoadNotice.ofCfiInit).filter sort := by
  cases r with
  | cfiInit base size rules =>
    cases hstore : s.tables.cfiInitial.store? ⟨base, size, rules⟩ with
    | none =>
      have hsaid : (s.record number (.cfiInit base size rules)).said sort =
          s.said sort ++ [.droppedCfiInit base].filter sort := by
        simp only [record, hstore, said_say]
      simp [hsaid, Record.initialRules?, RangeMap.refused, hstore, LoadNotice.ofCfiInit]
    | some cfiInitial =>
      simp [record, hstore, said, Record.initialRules?, RangeMap.refused]
  | line base size source =>
    exact (addLine_said sort hline s number _).trans (List.append_nil _).symm
  | layout base size layout =>
    exact (addLayout_said sort hlayout s _).trans (List.append_nil _).symm
  | mismatchedLayout base type hasProgram =>
    have hquiet := said_say_of_not s _ sort (hmismatched base type hasProgram)
    exact hquiet.trans (List.append_nil _).symm
  | ignored | header | file | function | publicSymbol | cfiDelta => exact (List.append_nil _).symm

end Record

open LoadNotice (isDroppedFunction isDroppedCfiInit ofFunction ofCfiInit)

theorem filter_isDroppedFunction_ofFunction (rs : List (Range Function)) :
    (rs.map ofFunction).filter isDroppedFunction = rs.map ofFunction := by
  simp [List.filter_eq_self, ofFunction, isDroppedFunction]

theorem filter_isDroppedFunction_ofCfiInit (rs : List (Range String)) :
    (rs.map ofCfiInit).filter isDroppedFunction = [] := by
  simp [List.filter_eq_nil_iff, ofCfiInit, isDroppedFunction]

theorem filter_isDroppedCfiInit_ofFunction (rs : List (Range Function)) :
    (rs.map ofFunction).filter isDroppedCfiInit = [] := by
  simp [List.filter_eq_nil_iff, ofFunction, isDroppedCfiInit]

theorem filter_isDroppedCfiInit_ofCfiInit (rs : List (Range String)) :
    (rs.map ofCfiInit).filter isDroppedCfiInit = rs.map ofCfiInit := by
  simp [List.filter_eq_self, ofCfiInit, isDroppedCfiInit]

/-- The warnings about functions once the open function is closed. -/
theorem close_said_function (s : Loading) :
    s.close.said isDroppedFunction = s.said isDroppedFunction ++ (s.tables.functions.refused
      (s.openFunction.toList.map OpenFunction.range)).map ofFunction := by
  rw [close_said, filter_isDroppedFunction_ofFunction]

theorem enter_said_function (s : Loading) (kind : RecordKind) :
    (s.enter (some kind)).said isDroppedFunction =
      if closes kind then s.close.said isDroppedFunction else s.said isDroppedFunction := by
  unfold enter
  rw [Option.any_some]
  split <;> rfl

theorem next_said_function (s : Loading) (number : Nat) (r : Record) :
    (s.next number r).said isDroppedFunction =
      if closes r.kind then s.close.said isDroppedFunction else s.said isDroppedFunction := by
  have hrecord := record_said isDroppedFunction (fun _ => rfl) (fun _ => rfl) (fun _ _ _ => rfl)
    (s.enter (some r.kind)) number r
  rw [filter_isDroppedFunction_ofCfiInit, List.append_nil, enter_said_function] at hrecord
  exact hrecord

/-- The warnings about functions once every function is closed: the function that was open is offered with
the lines up to the next `FUNC` record, and then the functions of the records are. -/
theorem close_nextAll_said_function (s : Loading) (rs : List (Nat × Record))
    (h : placed s.started s.openFunction.isSome (rs.map Prod.snd) = true) :
    (s.nextAll rs).close.said isDroppedFunction = s.said isDroppedFunction ++ (s.tables.functions.refused
      (s.openFunction.toList.map (fun f => (f.withLines (leadingLines (rs.map Prod.snd))).range) ++
        (functionBlocks (rs.map Prod.snd)).map FunctionBlock.entry)).map ofFunction := by
  induction rs generalizing s with
  | nil =>
    rw [nextAll_nil, close_said_function]
    cases s.openFunction <;> simp [functionBlocks, leadingLines, OpenFunction.withLines_nil]
  | cons p rs ih =>
    obtain ⟨number, r⟩ := p
    rw [List.map_cons, placed_cons_iff s number] at h
    obtain ⟨-, hrest⟩ := h
    rw [nextAll_cons, ih _ hrest, next_said_function, next_functions, next_openFunction]
    rw [next_openFunction] at hrest
    -- A record that closes the open function has it offered; then come those of the records after it.
    have hclosed (rest : List (Range Function)) :
        s.close.said isDroppedFunction ++ (s.closedFunctions.refused rest).map ofFunction =
          s.said isDroppedFunction ++ (s.tables.functions.refused
            (s.openFunction.toList.map OpenFunction.range ++ rest)).map ofFunction := by
      rw [close_said_function, RangeMap.refused_append, List.map_append, List.append_assoc]
      rfl
    cases r with
    | function head => exact hclosed _
    | line base size source => cases s.openFunction <;> rfl
    | ignored | header | file => rfl
    | publicSymbol | layout | mismatchedLayout | cfiInit | cfiDelta =>
      -- No function is open from here to the next `FUNC` record, so no line may stand there.
      have hlines : leadingLines (rs.map Prod.snd) = [] := leadingLines_of_placed _ _ hrest
      simp only [List.map_cons, leadingLines, functionBlocks, hlines]
      exact hclosed _

/-- Closing a function has no part in the initial rule sets. -/
theorem enter_cfiInitial (s : Loading) (kind : RecordKind) :
    (s.enter (some kind)).tables.cfiInitial = s.tables.cfiInitial := by
  rw [enter_tables]
  split <;> rfl

theorem enter_said_cfiInit (s : Loading) (kind : RecordKind) :
    (s.enter (some kind)).said isDroppedCfiInit = s.said isDroppedCfiInit := by
  unfold enter
  split
  · rw [close_said, filter_isDroppedCfiInit_ofFunction, List.append_nil]
  · rfl

theorem next_cfiInitial (s : Loading) (number : Nat) (r : Record) :
    (s.next number r).tables.cfiInitial = s.tables.cfiInitial.offerAll r.initialRules?.toList := by
  rw [next_tables, Tables.put_cfiInitial, enter_cfiInitial]
  cases r.initialRules? <;> rfl

theorem next_said_cfiInit (s : Loading) (number : Nat) (r : Record) :
    (s.next number r).said isDroppedCfiInit = s.said isDroppedCfiInit ++
      (s.tables.cfiInitial.refused r.initialRules?.toList).map ofCfiInit := by
  have hrecord := record_said isDroppedCfiInit (fun _ => rfl) (fun _ => rfl) (fun _ _ _ => rfl)
    (s.enter (some r.kind)) number r
  rw [filter_isDroppedCfiInit_ofCfiInit, enter_said_cfiInit, enter_cfiInitial] at hrecord
  exact hrecord

theorem nextAll_said_cfiInit (s : Loading) (rs : List (Nat × Record)) :
    (s.nextAll rs).said isDroppedCfiInit = s.said isDroppedCfiInit ++ (s.tables.cfiInitial.refused
      ((rs.map Prod.snd).filterMap Record.initialRules?)).map ofCfiInit := by
  induction rs generalizing s with
  | nil => exact (List.append_nil _).symm
  | cons p rs ih =>
    obtain ⟨number, r⟩ := p
    have hrules : (((number, r) :: rs).map Prod.snd).filterMap Record.initialRules? =
        r.initialRules?.toList ++ (rs.map Prod.snd).filterMap Record.initialRules? := by
      cases hr : r.initialRules? <;> simp [hr]
    rw [nextAll_cons, ih, next_said_cfiInit, next_cfiInitial, hrules, RangeMap.refused_append,
      List.map_append, List.append_assoc]

end Loading

open LoadNotice (isDroppedFunction isDroppedCfiInit ofFunction ofCfiInit)

namespace Tables

section Accepted

variable (t : Tables) (data : SymbolBuffer) (h : (t.load data).error = none)

include h

/-- What an accepted load says of a sort is said of its records, or when it closes the last function. -/
theorem filter_notices_load (sort : LoadNotice → Bool) (hencoding : sort .notUtf8 = false)
    (hloaded : ∀ functions symbols, sort (.loaded functions symbols) = false) :
    (t.load data).notices.filter sort =
      (Loading.nextAll ⟨t, none, false, []⟩ (numberedRecords 1 data.lines)).close.said sort := by
  have htext : (t.loadText (Utf8.decodeLossy data.text)).error = none := h
  have hwarning (b : Bool) : (if b then [] else [LoadNotice.notUtf8]).filter sort = [] := by
    cases b <;> simp [hencoding]
  have hrun : (t.loadText (Utf8.decodeLossy data.text)).notices.filter sort =
      (Loading.run ⟨t, none, false, []⟩ 1 data.lines).1.said sort := rfl
  unfold load
  simp only [htext, List.filter_append, hwarning, hrun, List.nil_append, List.filter_singleton, hloaded,
    cond_false, List.append_nil]
  rw [Loading.run_eq_nextAll _ 1 data.lines h]

theorem filter_notices_functions :
    (t.load data).notices.filter isDroppedFunction = (t.functions.refused
      ((functionBlocks (recordsOf (Utf8.decodeLossy data.text))).map FunctionBlock.entry)).map ofFunction := by
  have hplaced := ((Loading.run_eq_none_iff ⟨t, none, false, []⟩ 1 data.lines).mp h).2
  rw [← map_snd_numberedRecords 1 data.lines] at hplaced
  have hsaid := Loading.close_nextAll_said_function ⟨t, none, false, []⟩ _ hplaced
  rw [map_snd_numberedRecords] at hsaid
  exact (t.filter_notices_load data h isDroppedFunction rfl fun _ _ => rfl).trans hsaid

theorem filter_notices_cfiInitial :
    (t.load data).notices.filter isDroppedCfiInit = (t.cfiInitial.refused
      ((recordsOf (Utf8.decodeLossy data.text)).filterMap Record.initialRules?)).map ofCfiInit := by
  have hsaid := Loading.nextAll_said_cfiInit ⟨t, none, false, []⟩ (numberedRecords 1 data.lines)
  rw [map_snd_numberedRecords] at hsaid
  rw [t.filter_notices_load data h isDroppedCfiInit rfl fun _ _ => rfl, Loading.close_said,
    Loading.filter_isDroppedCfiInit_ofFunction, List.append_nil]
  exact hsaid

theorem functions_load :
    (t.load data).tables.functions = t.functions.offerAll
      ((functionBlocks (recordsOf (Utf8.decodeLossy data.text))).map FunctionBlock.entry) :=
  congrArg functions (tables_of_accepted t (Utf8.decodeLossy data.text) h)

theorem cfiInitial_load :
    (t.load data).tables.cfiInitial = t.cfiInitial.offerAll
      ((recordsOf (Utf8.decodeLossy data.text)).filterMap Record.initialRules?) := by
  have htables := congrArg cfiInitial (tables_of_accepted t (Utf8.decodeLossy data.text) h)
  exact htables.trans (foldl_put_table cfiInitial Record.initialRules? RangeMap.offer put_cfiInitial t _)

end Accepted

/-- The functions of the tables keep apart, and so do their initial rule sets. -/
structure KeepApart (t : Tables) : Prop where
  functions : t.functions.Disjoint
  cfiInitial : t.cfiInitial.Disjoint

theorem keepApart_empty : (∅ : Tables).KeepApart :=
  ⟨RangeMap.disjoint_empty, RangeMap.disjoint_empty⟩

/-- A load leaves the ranges apart, be it accepted or refused. -/
theorem KeepApart.parse {m : TextModule} (h : m.tables.KeepApart) (data : SymbolBuffer) :
    (TextModule.backend.parse m data).loaded.tables.KeepApart := by
  obtain ⟨rs, fs, error, hloads⟩ := exists_loadsAs data.lines
  have htables : (TextModule.backend.parse m data).loaded.tables = m.tables.fill rs fs :=
    hloads.leaves m.tables
  rw [htables]
  constructor
  · exact h.functions.offerAll fs
  · have hrules := foldl_put_table Tables.cfiInitial Record.initialRules? RangeMap.offer put_cfiInitial
      m.tables rs
    have hfilled : (m.tables.fill rs fs).cfiInitial = m.tables.cfiInitial.offerAll _ := hrules
    rw [hfilled]
    exact h.cfiInitial.offerAll _

end Tables

/-- A fresh module after some loads, accepted or refused. -/
def moduleAfter (name : String) (loads : List SymbolBuffer) : TextModule :=
  loads.foldl (fun m data => (TextModule.backend.parse m data).loaded) (TextModule.backend.create name)

theorem keepApart_moduleAfter (name : String) (loads : List SymbolBuffer) :
    (moduleAfter name loads).tables.KeepApart := by
  have hrun (m : TextModule) (h : m.tables.KeepApart) :
      (loads.foldl (fun m data => (TextModule.backend.parse m data).loaded) m).tables.KeepApart := by
    induction loads generalizing m with
    | nil => exact h
    | cons data loads ih => exact ih _ (h.parse data)
  exact hrun _ Tables.keepApart_empty

namespace Record

def isFunction : Record → Bool
  | .function _ => true
  | _ => false

def isCfiInit : Record → Bool
  | .cfiInit .. => true
  | _ => false

end Record

theorem length_functionBlocks (rs : List Record) :
    (functionBlocks rs).length = rs.countP Record.isFunction := by
  induction rs with
  | nil => rfl
  | cons r rs ih =>
    rw [List.countP_cons, ← ih]
    cases r <;> rfl

theorem length_initialRules (rs : List Record) :
    (rs.filterMap Record.initialRules?).length = rs.countP Record.isCfiInit := by
  rw [List.length_filterMap_eq_countP]
  apply List.countP_congr
  intro r _
  cases r <;> rfl

/-- Into whatever earlier loads have left, an accepted load offers every function of the file to the
function table and every initial rule set to the table of these, once each and in the order of the file.
All of them are stored, but for those that a warning names; and those are empty, go past the greatest
address, or overlap a range stored before them. -/
theorem functions_and_cfiInits_accounted_for (name : String) (loads : List SymbolBuffer)
    (data : SymbolBuffer)
    (haccepted : (TextModule.backend.parse (moduleAfter name loads) data).error = none) :
    let m := moduleAfter name loads
    let parsed := TextModule.backend.parse m data
    let rs := recordsOf (Utf8.decodeLossy data.text)
    let notices := (m.tables.load data).notices
    parsed.log = notices.map (·.log m.name) ∧
    m.tables.functions.size + rs.countP Record.isFunction =
      parsed.loaded.tables.functions.size + notices.countP LoadNotice.isDroppedFunction ∧
    m.tables.cfiInitial.size + rs.countP Record.isCfiInit =
      parsed.loaded.tables.cfiInitial.size + notices.countP LoadNotice.isDroppedCfiInit ∧
    (functionBlocks rs).map (fun b => b.range.map FunctionBlock.head) =
      rs.filterMap Record.functionRange? ∧
    RangeMap.Offered m.tables.functions parsed.loaded.tables.functions
      ((functionBlocks rs).map FunctionBlock.entry) LoadNotice.ofFunction
      (notices.filter LoadNotice.isDroppedFunction) ∧
    RangeMap.Offered m.tables.cfiInitial parsed.loaded.tables.cfiInitial
      (rs.filterMap Record.initialRules?) LoadNotice.ofCfiInit
      (notices.filter LoadNotice.isDroppedCfiInit) := by
  intro m parsed rs notices
  have hload : (m.tables.load data).error = none := Option.map_eq_none_iff.mp haccepted
  have hapart : m.tables.KeepApart := keepApart_moduleAfter name loads
  have hfunctions : RangeMap.Offered m.tables.functions parsed.loaded.tables.functions
      ((functionBlocks rs).map FunctionBlock.entry) LoadNotice.ofFunction
      (notices.filter LoadNotice.isDroppedFunction) := by
    have htable := m.tables.functions_load data hload
    have hwarnings := m.tables.filter_notices_functions data hload
    have hoffered := hapart.functions.offered ((functionBlocks rs).map FunctionBlock.entry)
      LoadNotice.ofFunction
    rw [← htable, ← hwarnings] at hoffered
    exact hoffered
  have hinitial : RangeMap.Offered m.tables.cfiInitial parsed.loaded.tables.cfiInitial
      (rs.filterMap Record.initialRules?) LoadNotice.ofCfiInit
      (notices.filter LoadNotice.isDroppedCfiInit) := by
    have htable := m.tables.cfiInitial_load data hload
    have hwarnings := m.tables.filter_notices_cfiInitial data hload
    have hoffered := hapart.cfiInitial.offered (rs.filterMap Record.initialRules?) LoadNotice.ofCfiInit
    rw [← htable, ← hwarnings] at hoffered
    exact hoffered
  refine ⟨rfl, ?_, ?_, map_head_functionBlocks rs, hfunctions, hinitial⟩
  · have hcount := hfunctions.length_ranges
    rw [List.length_map, length_functionBlocks, ← List.countP_eq_length_filter] at hcount
    exact hcount
  · have hcount := hinitial.length_ranges
    rw [length_initialRules, ← List.countP_eq_length_filter] at hcount
    exact hcount

/-- A file with functions that are closed by a `FUNC`, a `PUBLIC` and a `STACK` record and by the end, and
with one function for each reason to drop it. -/
def droppedFunctionsFile : SymbolBuffer where
  content := ["FUNC 10 8 0 f", "12 4 7 1", "FUNC 14 8 0 g", "PUBLIC 14 0 p", "FUNC 20 0 0 empty",
    "FUNC 40 4 0 h", "STACK CFI INIT 10 8 .cfa: $rsp 8 +", "STACK CFI INIT 17 8 .cfa: $rsp 16 +",
    "FUNC 30 4 0 again", "FUNC ffffffffffffffff 2 0 past", "FUNC 0 1 0 first"].flatMap fun line =>
      (SymbolBuffer.ofText (line ++ "\n")).content

/-- The file is loaded after one that was accepted and one that was refused with its function stored. -/
theorem accounted_for_droppedFunctionsFile :
    let m := moduleAfter "m" [.ofText "FUNC 30 4 0 a\n", .ofText "FUNC 50 4 0 b\nPUBLIC x\n"]
    let parsed := TextModule.backend.parse m droppedFunctionsFile
    let notices := (m.tables.load droppedFunctionsFile).notices
    parsed.error = none ∧ parsed.log = notices.map (·.log "m") ∧
    2 + 7 = parsed.loaded.tables.functions.size + 4 ∧ 0 + 2 = parsed.loaded.tables.cfiInitial.size + 1 ∧
    notices.filter LoadNotice.isDroppedFunction =
      [.droppedFunction "g" 0x14, .droppedFunction "empty" 0x20, .droppedFunction "again" 0x30,
        .droppedFunction "past" 0xFFFFFFFFFFFFFFFF] ∧
    notices.filter LoadNotice.isDroppedCfiInit = [.droppedCfiInit 0x17] := by
  intro m parsed notices
  have haccepted : parsed.error = none := by decide +kernel
  obtain ⟨hlog, hfunctions, hinitial, -, -, -⟩ :=
    functions_and_cfiInits_accounted_for "m" _ droppedFunctionsFile haccepted
  have hrecords : (recordsOf (Utf8.decodeLossy droppedFunctionsFile.text)).countP Record.isFunction = 7 ∧
      (recordsOf (Utf8.decodeLossy droppedFunctionsFile.text)).countP Record.isCfiInit = 2 := by
    decide +kernel
  have hsizes : m.tables.functions.size = 2 ∧ m.tables.cfiInitial.size = 0 := by decide +kernel
  have hdropped : notices.filter LoadNotice.isDroppedFunction =
        [.droppedFunction "g" 0x14, .droppedFunction "empty" 0x20, .droppedFunction "again" 0x30,
          .droppedFunction "past" 0xFFFFFFFFFFFFFFFF] ∧
      notices.filter LoadNotice.isDroppedCfiInit = [.droppedCfiInit 0x17] := by decide +kernel
  rw [hsizes.1, hrecords.1, List.countP_eq_length_filter, hdropped.1] at hfunctions
  rw [hsizes.2, hrecords.2, List.countP_eq_length_filter, hdropped.2] at hinitial
  exact ⟨haccepted, hlog, hfunctions, hinitial, hdropped.1, hdropped.2⟩

end Symbolication.SymbolFile
