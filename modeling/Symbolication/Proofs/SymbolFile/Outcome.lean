import Symbolication.Proofs.SymbolFile.Refusal

/-!
What a load answers and what it leaves, by its lines alone. The tables have no say in whether a line is
accepted, and what a line puts into them does not depend on what they hold. So some lines have one
answer and one effect in every module, and lines with the same records before the same wrong line have
the same.
-/

namespace Symbolication.SymbolFile

namespace Loading

theorem enter_openFunction (s : Loading) (kind : Option RecordKind) :
    (s.enter kind).openFunction = if kind.any closes then none else s.openFunction := by
  unfold enter
  split
  · exact close_openFunction s
  · rfl

/-- A line that is refused is refused in every state with the same open function, after a record or
not as it was. -/
theorem Refuses.congr {s t : Loading} {number other : Nat} {line : List Char} {reason : LineError}
    (hopen : s.openFunction = t.openFunction) (hstarted : s.started = t.started)
    (h : s.Refuses number line reason) : t.Refuses other line reason := by
  refine ⟨h.notBlank, ?_⟩
  have hrefused := h.accept
  have hmisplaced (kind : RecordKind) :
      (s.enter (kindOfLine? line)).misplaced? kind = (t.enter (kindOfLine? line)).misplaced? kind := by
    unfold misplaced?
    simp only [enter_started, enter_openFunction, hopen, hstarted]
  unfold Loading.accept at hrefused ⊢
  cases hkind : kindOfLine? line with
  | none =>
    rw [hkind] at hrefused
    exact hrefused
  | some kind =>
    have hplace := hmisplaced kind
    rw [hkind] at hrefused hplace
    simp only [hplace] at hrefused ⊢
    split at hrefused
    · exact hrefused
    · -- The fields are read from the line alone.
      split at hrefused
      · exact hrefused
      · cases hrefused

theorem nextAll_started (s : Loading) (rs : List (Nat × Record)) :
    (s.nextAll rs).started = (rs.map Prod.snd).foldl (fun _ _ => true) s.started :=
  nextAll_view Loading.started (fun _ _ => true) next_started s rs

end Loading

/-- The functions of the records that a record after them has closed. -/
def closedBlocks : List Record → List FunctionBlock
  | [] => []
  | .function head :: rs => if anyCloses rs then ⟨head, leadingLines rs⟩ :: closedBlocks rs else []
  | _ :: rs => closedBlocks rs

theorem closedBlocks_eq_nil (rs : List Record) (h : ¬ anyCloses rs = true) : closedBlocks rs = [] := by
  induction rs with
  | nil => rfl
  | cons r rs ih =>
    cases r with
    | function head => exact absurd rfl h
    | publicSymbol | layout | mismatchedLayout | cfiInit | cfiDelta => exact absurd rfl h
    | ignored | header | file | line => exact ih h

/-- The range of a function with what the function table holds of it. -/
def FunctionBlock.entry (b : FunctionBlock) : Range Function := b.range.map FunctionBlock.function

namespace Loading

/-- The function table after records: the function that was open and those of the records, as far as a
record closed them. -/
theorem nextAll_functions (s : Loading) (rs : List (Nat × Record))
    (h : placed s.started s.openFunction.isSome (rs.map Prod.snd) = true) :
    (s.nextAll rs).tables.functions = s.tables.functions.offerAll
      ((if anyCloses (rs.map Prod.snd) then
        s.openFunction.toList.map fun f => (f.withLines (leadingLines (rs.map Prod.snd))).range else []) ++
        (closedBlocks (rs.map Prod.snd)).map FunctionBlock.entry) := by
  induction rs generalizing s with
  | nil => rfl
  | cons p rs ih =>
    obtain ⟨number, r⟩ := p
    rw [List.map_cons, placed_cons_iff s number] at h
    obtain ⟨-, hrest⟩ := h
    rw [nextAll_cons, ih _ hrest, next_functions, next_openFunction, List.map_cons]
    rw [next_openFunction] at hrest
    cases r with
    | function head =>
      -- The function that was open is stored; the one of the record waits for a record to close it.
      have hclosed : s.closedFunctions =
          s.tables.functions.offerAll (s.openFunction.toList.map OpenFunction.range) := rfl
      have hany : anyCloses (.function head :: rs.map Prod.snd) = true := rfl
      rw [if_pos (show closes (Record.function head).kind = true from rfl), hclosed, if_pos hany,
        ← RangeMap.offerAll_append, closedBlocks]
      congr 1
      by_cases hlater : anyCloses (rs.map Prod.snd) = true
      · rw [if_pos hlater, if_pos hlater]
        rfl
      · rw [if_neg hlater, if_neg hlater, closedBlocks_eq_nil _ hlater]
        rfl
    | line base size source => cases s.openFunction <;> rfl
    | ignored | header | file => rfl
    | publicSymbol | layout | mismatchedLayout | cfiInit | cfiDelta =>
      -- No function is open from here on, so no line may come before the next `FUNC` record.
      have hlines : leadingLines (rs.map Prod.snd) = [] := leadingLines_of_placed _ _ hrest
      simp only [leadingLines, hlines, Option.toList_none, List.map_nil, ite_self]
      exact (RangeMap.offerAll_append _ _ _).symm

end Loading

/-- The tables after records, when functions with these ranges were stored among them. -/
def Tables.fill (t : Tables) (rs : List Record) (fs : List (Range Function)) : Tables :=
  (rs.foldl put t).withFunctions (t.functions.offerAll fs)

/-- The functions that are stored when `line` ends a load after the records: the last one only if the
line closes it. -/
def storedBlocks (rs : List Record) (line : List Char) : List FunctionBlock :=
  if firstWord line ∈ closingWords then functionBlocks rs else closedBlocks rs

/-- What a load of some lines answers and leaves, whatever the tables hold. -/
structure LoadsAs (ls : List (List Char)) (rs : List Record) (fs : List (Range Function))
    (error : Option LoadError) : Prop where
  answers (t : Tables) : (Loading.run ⟨t, none, false, []⟩ 1 ls).2 = error
  leaves (t : Tables) : (Loading.run ⟨t, none, false, []⟩ 1 ls).1.tables = t.fill rs fs

theorem loadsAs_of_accepted (ls : List (List Char))
    (hall : ∀ line ∈ ls, line ≠ [] → (recordOfLine? line).isSome)
    (hplaced : placed false false (ls.filterMap recordOfLine?) = true) :
    LoadsAs ls (ls.filterMap recordOfLine?)
      ((functionBlocks (ls.filterMap recordOfLine?)).map FunctionBlock.entry) none := by
  have haccepted (t : Tables) : (Loading.run ⟨t, none, false, []⟩ 1 ls).2 = none :=
    (Loading.run_eq_none_iff ⟨t, none, false, []⟩ 1 ls).mpr ⟨hall, hplaced⟩
  exact ⟨haccepted, fun t => Loading.run_tables_of_accepted t ls (haccepted t)⟩

namespace Loading

variable {t : Tables} {front : List (List Char)} {line : List Char} {reason : LineError}

/-- A wrong line is refused after other lines, in other tables, if the records before it are the same. -/
theorem RefusedAfter.congr (h : RefusedAfter ⟨t, none, false, []⟩ 1 front line reason) (u : Tables)
    (other : List (List Char)) (hrecords : other.filterMap recordOfLine? = front.filterMap recordOfLine?)
    (hall : ∀ l ∈ other, l ≠ [] → (recordOfLine? l).isSome) :
    RefusedAfter ⟨u, none, false, []⟩ 1 other line reason := by
  have hplaced := ((run_eq_none_iff ⟨t, none, false, []⟩ 1 front).mp h.goesThrough).2
  have hnumbered : (numberedRecords 1 front).map Prod.snd = (numberedRecords 1 other).map Prod.snd := by
    rw [map_snd_numberedRecords, map_snd_numberedRecords, hrecords]
  constructor
  · apply (run_eq_none_iff ⟨u, none, false, []⟩ 1 other).mpr
    exact ⟨hall, hrecords.symm ▸ hplaced⟩
  · apply h.refuses.congr
    · rw [openFunction_of_records, openFunction_of_records, hnumbered]
    · rw [nextAll_started, nextAll_started, hnumbered]

theorem RefusedAfter.leaves (h : RefusedAfter ⟨t, none, false, []⟩ 1 front line reason)
    (back : List (List Char)) :
    (Loading.run ⟨t, none, false, []⟩ 1 (front ++ line :: back)).1.tables =
      t.fill (front.filterMap recordOfLine?)
        ((storedBlocks (front.filterMap recordOfLine?) line).map FunctionBlock.entry) := by
  have hplaced := ((run_eq_none_iff ⟨t, none, false, []⟩ 1 front).mp h.goesThrough).2
  rw [← map_snd_numberedRecords 1 front] at hplaced ⊢
  have hclosed := closedFunctions_nextAll ⟨t, none, false, []⟩ _ hplaced
  have hfunctions := nextAll_functions ⟨t, none, false, []⟩ _ hplaced
  rw [h.run, enter_tables_of_line, nextAll_tables, Tables.fill, storedBlocks]
  split
  · rw [hclosed]
    rfl
  · simp only [Option.toList_none, List.map_nil, ite_self] at hfunctions
    rw [hfunctions]
    rfl

end Loading

theorem loadsAs_of_refused {t : Tables} {front : List (List Char)} {line : List Char} {reason : LineError}
    (h : Loading.RefusedAfter ⟨t, none, false, []⟩ 1 front line reason) (other back : List (List Char))
    (hrecords : other.filterMap recordOfLine? = front.filterMap recordOfLine?)
    (hall : ∀ l ∈ other, l ≠ [] → (recordOfLine? l).isSome) :
    LoadsAs (other ++ line :: back) (front.filterMap recordOfLine?)
      ((storedBlocks (front.filterMap recordOfLine?) line).map FunctionBlock.entry)
      (some ⟨1 + other.length, reason⟩) := by
  have hrefused (u : Tables) := h.congr u other hrecords hall
  constructor
  · intro u
    rw [(hrefused u).run]
  · intro u
    rw [(hrefused u).leaves, hrecords]

/-- Some lines have one answer and one effect. -/
theorem exists_loadsAs (ls : List (List Char)) : ∃ rs fs error, LoadsAs ls rs fs error := by
  cases herror : (Loading.run ⟨∅, none, false, []⟩ 1 ls).2 with
  | none =>
    obtain ⟨hall, hplaced⟩ := (Loading.run_eq_none_iff ⟨∅, none, false, []⟩ 1 ls).mp herror
    exact ⟨_, _, _, loadsAs_of_accepted ls hall hplaced⟩
  | some e =>
    obtain ⟨front, line, back, rfl, -, hrefused⟩ := Loading.exists_refusedAfter _ 1 ls e herror
    have hall := ((Loading.run_eq_none_iff ⟨∅, none, false, []⟩ 1 front).mp hrefused.goesThrough).1
    exact ⟨_, _, _, loadsAs_of_refused hrefused front back rfl hall⟩

end Symbolication.SymbolFile
