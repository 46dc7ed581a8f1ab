import Symbolication.Proofs.SymbolFile.Records
import Symbolication.Proofs.SymbolFile.WholeFile

/-!
The tables that a sequence of records leaves behind, each given by the records alone. The function
table is the one that lags: it has the open function only once that function is closed.
-/

namespace Symbolication.SymbolFile

open Text (lines)

namespace Tables

/-- What a record adds to the tables. Functions and their lines come later, when they are closed. -/
def put (t : Tables) : Record → Tables
  | .ignored | .function _ | .line .. | .mismatchedLayout .. => t
  | .header header => { t with header := some header }
  | .file number name => { t with files := t.files.insert number name }
  | .publicSymbol address symbol => t.addPublicSymbol address symbol
  | .layout base size layout =>
    match layout.kind with
    | .frameData => { t with frameDataLayouts := t.frameDataLayouts.offer ⟨base, size, layout⟩ }
    | .fpo => { t with fpoLayouts := t.fpoLayouts.offer ⟨base, size, layout⟩ }
    | _ => t
  | .cfiInit base size rules => { t with cfiInitial := t.cfiInitial.offer ⟨base, size, rules⟩ }
  | .cfiDelta address rules => { t with cfiDeltas := t.cfiDeltas.insert address rules }

theorem put_functions (t : Tables) (r : Record) : (t.put r).functions = t.functions := by
  unfold put addPublicSymbol
  split <;> (try split) <;> rfl

/-- The tables with another function table. -/
def withFunctions (t : Tables) (functions : RangeMap Function) : Tables := { t with functions }

theorem withFunctions_withFunctions (t : Tables) (functions others : RangeMap Function) :
    (t.withFunctions functions).withFunctions others = t.withFunctions others := rfl

theorem put_withFunctions (t : Tables) (functions : RangeMap Function) (r : Record) :
    (t.withFunctions functions).put r = (t.put r).withFunctions functions := by
  unfold put addPublicSymbol
  split <;> (try split) <;> rfl

theorem foldl_put_withFunctions (t : Tables) (functions : RangeMap Function) (rs : List Record) :
    rs.foldl put (t.withFunctions functions) = (rs.foldl put t).withFunctions functions :=
  List.foldl_hom (fun t => t.withFunctions functions) fun t r => put_withFunctions t functions r

end Tables

namespace OpenFunction

def range (f : OpenFunction) : Range Function := ⟨f.base, f.size, f.function⟩

def withLines (f : OpenFunction) (rs : List (Range SourceLine)) : OpenFunction :=
  { f with function := { f.function with lines := f.function.lines.offerAll rs } }

theorem withLines_nil (f : OpenFunction) : f.withLines [] = f := rfl

end OpenFunction

namespace FunctionBlock

/-- What the function table holds of a function. -/
def function (b : FunctionBlock) : Function :=
  ⟨b.head.name, b.head.parameterSize, (∅ : RangeMap SourceLine).offerAll b.lines⟩

end FunctionBlock

namespace Loading

/-- The function table with the open function stored. -/
def closedFunctions (s : Loading) : RangeMap Function :=
  s.tables.functions.offerAll (s.openFunction.toList.map OpenFunction.range)

theorem close_tables (s : Loading) :
    s.close.tables = s.tables.withFunctions s.closedFunctions := by
  unfold close closedFunctions
  cases hopen : s.openFunction with
  | none => rfl
  | some f =>
    cases hstore : s.tables.functions.store? ⟨f.base, f.size, f.function⟩ with
    | none => simp [say, OpenFunction.range, RangeMap.offer, hstore, Tables.withFunctions]
    | some functions => simp [OpenFunction.range, RangeMap.offer, hstore, Tables.withFunctions]

theorem addLine_tables (s : Loading) (number : Nat) (r : Range SourceLine) :
    (s.addLine number r).tables = s.tables := by
  unfold addLine
  split
  · rfl
  · split
    · rfl
    · split <;> rfl

theorem addLayout_tables (s : Loading) (r : Range FrameLayout) :
    (s.addLayout r).tables = s.tables.put (.layout r.base r.size r.value) := by
  unfold addLayout
  cases hkind : r.value.kind with
  | frameData =>
    cases hstore : s.tables.frameDataLayouts.store? r <;>
      simp [Tables.put, RangeMap.offer, hkind, hstore, say]
  | fpo =>
    cases hstore : s.tables.fpoLayouts.store? r <;>
      simp [Tables.put, RangeMap.offer, hkind, hstore, say]
  | trap | tss | standard | unknown => simp [Tables.put, hkind]

theorem record_tables (s : Loading) (number : Nat) (r : Record) :
    (s.record number r).tables = s.tables.put r := by
  cases r with
  | ignored | header | file | function | publicSymbol | mismatchedLayout | cfiDelta => rfl
  | line base size source => exact addLine_tables s number _
  | layout base size layout => exact addLayout_tables s _
  | cfiInit base size rules =>
    cases hstore : s.tables.cfiInitial.store? ⟨base, size, rules⟩ <;>
      simp [record, Tables.put, RangeMap.offer, hstore, say]

theorem next_tables (s : Loading) (number : Nat) (r : Record) :
    (s.next number r).tables = (s.enter (some r.kind)).tables.put r :=
  record_tables _ number r

theorem enter_tables (s : Loading) (kind : RecordKind) :
    (s.enter (some kind)).tables =
      if closes kind then s.tables.withFunctions s.closedFunctions else s.tables := by
  unfold enter
  rw [Option.any_some]
  split
  · exact close_tables s
  · rfl

theorem next_functions (s : Loading) (number : Nat) (r : Record) :
    (s.next number r).tables.functions =
      if closes r.kind then s.closedFunctions else s.tables.functions := by
  rw [next_tables, Tables.put_functions, enter_tables]
  split <;> rfl

/-- A view of the state that each record changes in its own way is changed by the records in turn. -/
theorem nextAll_view {β : Type} (view : Loading → β) (op : β → Record → β)
    (h : ∀ s number r, view (s.next number r) = op (view s) r) (s : Loading)
    (rs : List (Nat × Record)) :
    view (s.nextAll rs) = (rs.map Prod.snd).foldl op (view s) := by
  induction rs generalizing s with
  | nil => rfl
  | cons p rs ih =>
    obtain ⟨number, r⟩ := p
    rw [nextAll_cons, ih, h]
    rfl

end Loading

theorem leadingLines_of_placed (started : Bool) (rs : List Record)
    (h : placed started false rs = true) : leadingLines rs = [] := by
  induction rs generalizing started with
  | nil => rfl
  | cons r rs ih =>
    cases r with
    | function => rfl
    | line => simp [placed, Record.kind] at h
    | header =>
      have hrest : !started = true ∧ placed true false rs = true := by
        simpa [placed, Record.kind] using h
      exact ih true hrest.2
    | ignored | file | publicSymbol | layout | mismatchedLayout | cfiInit | cfiDelta =>
      exact ih true h

namespace Loading

/-- The function table once every function is closed: the function that was open, with the lines up
to the next `FUNC` record, and then the functions of the records. -/
theorem closedFunctions_nextAll (s : Loading) (rs : List (Nat × Record))
    (h : placed s.started s.openFunction.isSome (rs.map Prod.snd) = true) :
    (s.nextAll rs).closedFunctions = s.tables.functions.offerAll
      (s.openFunction.toList.map (fun f => (f.withLines (leadingLines (rs.map Prod.snd))).range) ++
        (functionBlocks (rs.map Prod.snd)).map fun b => b.range.map FunctionBlock.function) := by
  induction rs generalizing s with
  | nil =>
    cases hopen : s.openFunction <;>
      simp [closedFunctions, hopen, functionBlocks, leadingLines, OpenFunction.withLines_nil]
  | cons p rs ih =>
    obtain ⟨number, r⟩ := p
    rw [List.map_cons, placed_cons_iff s number] at h
    obtain ⟨hmis, hrest⟩ := h
    rw [nextAll_cons, ih _ hrest, next_functions, next_openFunction]
    rw [next_openFunction] at hrest
    cases r with
    | function head =>
      -- The function that was open is stored without further lines.
      exact (RangeMap.offerAll_append _ _ _).symm
    | line base size source => cases s.openFunction <;> rfl
    | ignored | header | file => rfl
    | publicSymbol | layout | mismatchedLayout | cfiInit | cfiDelta =>
      -- No function is open from here to the next `FUNC` record, so no line may stand there.
      have hlines : leadingLines (rs.map Prod.snd) = [] := leadingLines_of_placed _ _ hrest
      simp only [List.map_cons, leadingLines, functionBlocks, hlines]
      exact (RangeMap.offerAll_append _ _ _).symm

end Loading

/-- The tables after all the records of a text, with every function closed. -/
def Tables.absorb (t : Tables) (rs : List Record) : Tables :=
  (rs.foldl Tables.put t).withFunctions (t.functions.offerAll
    ((functionBlocks rs).map fun b => b.range.map FunctionBlock.function))

namespace Loading

/-- The function table apart, records put into the tables one after the other what they have to say. -/
theorem nextAll_tables (s : Loading) (rs : List (Nat × Record)) :
    (s.nextAll rs).tables = ((rs.map Prod.snd).foldl Tables.put s.tables).withFunctions
      (s.nextAll rs).tables.functions := by
  -- What is in the function table so far plays no part in the other tables.
  have hnext (s : Loading) (number : Nat) (r : Record) :
      (s.next number r).tables.withFunctions ∅ = (s.tables.withFunctions ∅).put r := by
    rw [next_tables, enter_tables, Tables.put_withFunctions]
    split
    · exact congrArg (·.withFunctions ∅) (s.tables.put_withFunctions s.closedFunctions r)
    · rfl
  have hothers := nextAll_view (·.tables.withFunctions ∅) Tables.put hnext s rs
  rw [Tables.foldl_put_withFunctions] at hothers
  exact congrArg (·.withFunctions (s.nextAll rs).tables.functions) hothers

/-- Lines that are accepted leave in any tables what their records make of them. -/
theorem run_tables_of_accepted (t : Tables) (ls : List (List Char))
    (h : (run ⟨t, none, false, []⟩ 1 ls).2 = none) :
    (run ⟨t, none, false, []⟩ 1 ls).1.tables = t.absorb (ls.filterMap recordOfLine?) := by
  have hplaced := ((run_eq_none_iff ⟨t, none, false, []⟩ 1 ls).mp h).2
  rw [← map_snd_numberedRecords 1 ls] at hplaced ⊢
  have hfunctions := closedFunctions_nextAll ⟨t, none, false, []⟩ _ hplaced
  rw [run_eq_nextAll _ 1 ls h, close_tables, hfunctions, nextAll_tables]
  rfl

end Loading

/-- A text that is accepted leaves in any tables what its records make of them. -/
theorem tables_of_accepted (t : Tables) (text : List Char) (h : (t.loadText text).error = none) :
    (t.loadText text).tables = t.absorb (recordsOf text) :=
  Loading.run_tables_of_accepted t (lines text) h

theorem leadingLines_append (rs ts : List Record) (h : leadingLines ts = []) :
    leadingLines (rs ++ ts) = leadingLines rs := by
  induction rs with
  | nil => exact h
  | cons r rs ih =>
    cases r with
    | function => rfl
    | line base size source => exact congrArg (⟨base, size, source⟩ :: ·) ih
    | ignored | header | file | publicSymbol | layout | mismatchedLayout | cfiInit | cfiDelta => exact ih

/-- Records that do not begin with lines of their own have their own functions. -/
theorem functionBlocks_append (rs ts : List Record) (h : leadingLines ts = []) :
    functionBlocks (rs ++ ts) = functionBlocks rs ++ functionBlocks ts := by
  induction rs with
  | nil => rfl
  | cons r rs ih =>
    cases r with
    | function head =>
      simp only [List.cons_append, functionBlocks]
      rw [leadingLines_append rs ts h, ih]
    | ignored | header | file | line | publicSymbol | layout | mismatchedLayout | cfiInit | cfiDelta =>
      exact ih

section Filter

variable (keep : Record → Bool) (hfunction : ∀ head, keep (.function head) = true)
  (hline : ∀ base size source, keep (.line base size source) = true)

include hfunction hline

/-- Records other than functions and lines have no part in which lines belong to a function. -/
theorem leadingLines_filter (rs : List Record) : leadingLines (rs.filter keep) = leadingLines rs := by
  induction rs with
  | nil => rfl
  | cons r rs ih =>
    rw [List.filter_cons]
    cases r with
    | function head =>
      rw [if_pos (hfunction head)]
      rfl
    | line base size source =>
      rw [if_pos (hline base size source)]
      exact congrArg (⟨base, size, source⟩ :: ·) ih
    | _ => split <;> exact ih

theorem functionBlocks_filter (rs : List Record) :
    functionBlocks (rs.filter keep) = functionBlocks rs := by
  induction rs with
  | nil => rfl
  | cons r rs ih =>
    rw [List.filter_cons]
    cases r with
    | function head =>
      have hlines := leadingLines_filter keep hfunction hline rs
      rw [if_pos (hfunction head)]
      exact congrArg₂ (⟨head, ·⟩ :: ·) hlines ih
    | _ => split <;> exact ih

end Filter

/-- Records that do not begin with lines of their own may as well come in a text of their own. -/
theorem Tables.absorb_append (t : Tables) (rs ts : List Record) (h : leadingLines ts = []) :
    t.absorb (rs ++ ts) = (t.absorb rs).absorb ts := by
  unfold absorb
  rw [functionBlocks_append rs ts h, List.map_append, RangeMap.offerAll_append, List.foldl_append,
    foldl_put_withFunctions, withFunctions_withFunctions]
  rfl

theorem foldl_or_last {β γ : Type} (f : β → Option γ) (rs : List β) (o : Option γ) :
    rs.foldl (fun o r => (f r).or o) o = (rs.filterMap f).getLast?.or o := by
  induction rs generalizing o with
  | nil => rfl
  | cons r rs ih =>
    rw [List.foldl_cons, ih]
    cases hr : f r with
    | none => rw [List.filterMap_cons_none hr, Option.none_or]
    | some c =>
      rw [List.filterMap_cons_some hr, List.getLast?_cons]
      cases (rs.filterMap f).getLast? <;> rfl

theorem foldl_or_first {β γ : Type} (f : β → Option γ) (rs : List β) (o : Option γ) :
    rs.foldl (fun o r => o.or (f r)) o = o.or (rs.findSome? f) := by
  induction rs generalizing o with
  | nil => simp
  | cons r rs ih =>
    rw [List.foldl_cons, ih, List.findSome?_cons, Option.or_assoc]
    cases f r <;> rfl

namespace Tables

theorem put_files (t : Tables) (r : Record) (number : UInt32) :
    (t.put r).files.get? number = (r.fileNamed? number).or (t.files.get? number) := by
  cases r with
  | file n name =>
    simp only [put, OrderedMap.get?_insert, Record.fileNamed?, eq_comm]
    split <;> rfl
  | publicSymbol address symbol =>
    simp only [put, addPublicSymbol]
    split <;> rfl
  | layout base size layout =>
    simp only [put]
    split <;> rfl
  | ignored | header | function | line | mismatchedLayout | cfiInit | cfiDelta => rfl

theorem put_publicSymbols (t : Tables) (r : Record) (address : UInt64) :
    (t.put r).publicSymbols.get? address =
      (t.publicSymbols.get? address).or (if address = 0 then none else r.publicAt? address) := by
  cases r with
  | publicSymbol a symbol =>
    simp only [put, addPublicSymbol, Record.publicAt?]
    -- Nothing is put at 0, and elsewhere the first symbol keeps its place.
    by_cases ha : a = 0
    · subst ha
      by_cases hz : address = 0
      · simp [hz]
      · simp [hz, Ne.symm hz]
    · by_cases hz : address = 0
      · simp [hz, ha, OrderedMap.get?_insertNew]
      · simp [hz, ha, OrderedMap.get?_insertNew]
  | layout base size layout =>
    simp only [put]
    split <;> simp [Record.publicAt?]
  | ignored | header | file | function | line | mismatchedLayout | cfiInit | cfiDelta =>
    simp [put, Record.publicAt?]

/-- A table that holds what some of the records have to say, stored in turn. -/
theorem foldl_put_table {β γ : Type} (table : Tables → β) (pick? : Record → Option γ)
    (store : β → γ → β)
    (hput : ∀ t r, table (t.put r) = (pick? r).elim (table t) (store (table t)))
    (t : Tables) (rs : List Record) :
    table (rs.foldl put t) = (rs.filterMap pick?).foldl store (table t) := by
  rw [List.foldl_filterMap]
  refine (List.foldl_hom table fun t r => ?_).symm
  rw [hput]
  cases pick? r <;> rfl

end Tables

section Accepted

variable (text : List Char) (h : ((∅ : Tables).loadText text).error = none)

include h

/-- A view of the tables in which closing a function does not show is changed by the records in turn. -/
theorem view_of_accepted {β : Type} (view : Tables → β) (op : β → Record → β)
    (hclose : ∀ t functions, view (t.withFunctions functions) = view t)
    (hput : ∀ t r, view (t.put r) = op (view t) r) :
    view ((∅ : Tables).loadText text).tables = (recordsOf text).foldl op (view ∅) := by
  have hrecords : view ((recordsOf text).foldl Tables.put ∅) = (recordsOf text).foldl op (view ∅) :=
    (List.foldl_hom view fun t r => (hput t r).symm).symm
  rw [tables_of_accepted ∅ text h, Tables.absorb, hclose, hrecords]

theorem table_of_accepted {β γ : Type} (table : Tables → β) (pick? : Record → Option γ)
    (store : β → γ → β) (hclose : ∀ t functions, table (t.withFunctions functions) = table t)
    (hput : ∀ t r, table (t.put r) = (pick? r).elim (table t) (store (table t))) :
    table ((∅ : Tables).loadText text).tables =
      ((recordsOf text).filterMap pick?).foldl store (table ∅) := by
  rw [tables_of_accepted ∅ text h, Tables.absorb, hclose,
    Tables.foldl_put_table table pick? store hput]

/-- A look-up in a table of ranges is a search among those that stay of what the records offer. -/
theorem find?_of_accepted {α : Type} (table : Tables → RangeMap α) (pick? : Record → Option (Range α))
    (hempty : table ∅ = ∅) (hclose : ∀ t functions, table (t.withFunctions functions) = table t)
    (hput : ∀ t r, table (t.put r) = (pick? r).elim (table t) (table t).offer) (offset : UInt64) :
    (table ((∅ : Tables).loadText text).tables).find? offset =
      (Range.keep ((recordsOf text).filterMap pick?)).find? (·.covers offset) := by
  rw [table_of_accepted text h table pick? RangeMap.offer hclose hput, hempty]
  exact RangeMap.find?_offerAll_empty _ offset

end Accepted

/-- The tables hold of a text what its records say, each table by its own rule. -/
structure Tables.Hold (t : Tables) (rs : List Record) : Prop where
  functions : t.functions = (∅ : RangeMap Function).offerAll
    ((functionBlocks rs).map fun b => b.range.map FunctionBlock.function)
  fileName? (number : UInt32) : t.fileName? number = lastFileName? rs number
  publicSymbols (address : UInt64) : t.publicSymbols.get? address =
    if address = 0 then none else firstPublic? rs address

theorem hold_of_accepted (text : List Char)
    (h : ((∅ : Tables).loadText text).error = none) :
    ((∅ : Tables).loadText text).tables.Hold (recordsOf text) := by
  constructor
  · rw [tables_of_accepted ∅ text h]
    rfl
  · intro number
    have hview := view_of_accepted text h (fun t => t.files.get? number)
      (fun o r => (r.fileNamed? number).or o) (fun _ _ => rfl) fun t r => t.put_files r number
    rw [foldl_or_last] at hview
    exact hview.trans Option.or_none
  · intro address
    have hview := view_of_accepted text h (fun t => t.publicSymbols.get? address)
      (fun o r => o.or (if address = 0 then none else r.publicAt? address)) (fun _ _ => rfl)
      fun t r => t.put_publicSymbols r address
    rw [foldl_or_first] at hview
    refine hview.trans ?_
    by_cases hz : address = 0
    · have hnone : (recordsOf text).findSome? (fun r =>
          if address = 0 then none else r.publicAt? address) = none :=
        List.findSome?_eq_none_iff.mpr fun r _ => if_pos hz
      rw [hnone, if_pos hz]
      rfl
    · simp only [if_neg hz]
      rfl

end Symbolication.SymbolFile
