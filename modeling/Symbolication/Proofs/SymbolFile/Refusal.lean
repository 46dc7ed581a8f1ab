import Symbolication.Proofs.OrderedMap.Insertion
import Symbolication.Proofs.SymbolFile.Accepted
import Symbolication.Proofs.SymbolFile.Contents
import Symbolication.Proofs.Text.DecodedLines

/-!
Symbol files that are refused. The load stops at the first line that is wrong where it stands, and
what comes after that line has no say in it. What is left in the tables is what the lines before it
load, save that a function which the wrong line does not close is not stored.
-/

namespace Symbolication

/-- Taking a range out again leaves the map that it was stored in. -/
theorem RangeMap.erase_of_store?_eq_some {α : Type} (m n : RangeMap α) (r : Range α)
    (h : m.store? r = some n) : n.entries.erase r.base = m.entries := by
  obtain ⟨⟨hstorable, hfree⟩, hn⟩ := (store?_eq_some_iff m n r).mp h
  -- A range that starts where `r` starts would have kept it out.
  have hnone : m.entries.get? r.base = none := by
    rw [OrderedMap.get?_eq_none_iff]
    intro a hmem
    have hmeets := meets_of_mem m r ⟨r.base, a.1, a.2⟩ hstorable ((mem_toList_iff m _).mpr hmem) rfl
    rw [hmeets] at hfree
    cases hfree
  rw [hn]
  exact OrderedMap.erase_insert_of_get?_eq_none _ _ _ hnone

namespace SymbolFile

open Text

/-- What stands before the first space of a line. -/
def firstWord (line : List Char) : List Char := line.takeWhile (· ≠ ' ')

theorem splitAt?_fst (line : List Char) : (splitAt? ' ' line).1 = firstWord line := by
  unfold firstWord
  induction line with
  | nil => rfl
  | cons c line ih =>
    rw [splitAt?, List.takeWhile_cons]
    by_cases hc : c = ' '
    · simp [hc]
    · simp [hc, ih]

/-- All kinds but that of a line record are announced by their keywords. -/
theorem kindOfLine?_eq_some_iff (line : List Char) (kind : RecordKind) (hkind : kind ≠ .line) :
    kindOfLine? line = some kind ↔ firstWord line ∈ kind.keywords := by
  rw [kindOfLine?, splitAt?_fst, RecordKind.ofWord?_eq_some_iff]
  exact or_iff_left fun h => hkind h.1

/-- The words that announce a record which closes the open function. -/
def closingWords : List (List Char) := ["FUNC".toList, "PUBLIC".toList, "STACK".toList]

theorem any_closes_iff (line : List Char) :
    (kindOfLine? line).any Loading.closes = true ↔ firstWord line ∈ closingWords := by
  unfold kindOfLine? RecordKind.ofWord? closingWords
  rw [splitAt?_fst]
  generalize firstWord line = word
  by_cases hfunc : word = "FUNC".toList
  · subst hfunc
    decide
  by_cases hpublic : word = "PUBLIC".toList
  · subst hpublic
    decide
  by_cases hstack : word = "STACK".toList
  · subst hstack
    decide
  · have hnot : word ∉ ["FUNC".toList, "PUBLIC".toList, "STACK".toList] := by
      simp only [List.mem_cons, List.not_mem_nil, or_false, not_or]
      exact ⟨hfunc, hpublic, hstack⟩
    rw [if_neg hfunc, if_neg hpublic, if_neg hstack]
    refine iff_of_false ?_ hnot
    split_ifs <;> simp [Loading.closes]

namespace Loading

/-- The load gets over the line and goes on from `t`. -/
structure GetsOver (s : Loading) (number : Nat) (line : List Char) (t : Loading) : Prop where
  run (rest : List (List Char)) : s.run number (line :: rest) = t.run (number + 1) rest
  nextAll (rest : List (List Char)) :
    s.nextAll (numberedRecords number (line :: rest)) = t.nextAll (numberedRecords (number + 1) rest)

/-- The load is refused on the line. -/
structure Refuses (s : Loading) (number : Nat) (line : List Char) (reason : LineError) : Prop where
  notBlank : line ≠ []
  accept : (s.enter (kindOfLine? line)).accept (kindOfLine? line) number line = .error reason

/-- A refused line leaves the state in which it was read, and nothing after it is looked at. -/
theorem Refuses.run {s : Loading} {number : Nat} {line : List Char} {reason : LineError}
    (h : s.Refuses number line reason) (rest : List (List Char)) :
    s.run number (line :: rest) = (s.enter (kindOfLine? line), some ⟨number, reason⟩) := by
  have hempty : line.isEmpty = false := by simpa using h.notBlank
  rw [Loading.run, hempty]
  simp only [h.accept, Bool.false_eq_true, if_false]

theorem getsOver_or_refuses (s : Loading) (number : Nat) (line : List Char) :
    (∃ t, s.GetsOver number line t) ∨ ∃ reason, s.Refuses number line reason := by
  by_cases hline : line = []
  · -- A blank line is passed over.
    subst hline
    exact Or.inl ⟨s, ⟨fun _ => rfl, fun _ => rfl⟩⟩
  cases hacc : (s.enter (kindOfLine? line)).accept (kindOfLine? line) number line with
  | error reason => exact Or.inr ⟨reason, hline, hacc⟩
  | ok t =>
    obtain ⟨k, r, hk, -, hread, ht⟩ := (accept_eq_ok_iff _ _ _ _ _).mp hacc
    have hempty : line.isEmpty = false := by simpa using hline
    have hrecord : recordOfLine? line = some r := by
      rw [recordOfLine?, hk]
      exact hread
    have hnext : s.next number r = t := by
      rw [next, Record.kind_of_read? k line r hread, ← hk]
      exact ht
    refine Or.inl ⟨t, ⟨?_, ?_⟩⟩
    · intro rest
      rw [run, hempty]
      simp only [hacc, Bool.false_eq_true, if_false]
    · intro rest
      rw [numberedRecords, hrecord, ← hnext]
      rfl

/-- After lines that go through, the load goes on from what their records do. -/
theorem run_append (s : Loading) (number : Nat) (front rest : List (List Char))
    (h : (s.run number front).2 = none) :
    s.run number (front ++ rest) =
      (s.nextAll (numberedRecords number front)).run (number + front.length) rest := by
  induction front generalizing s number with
  | nil => rfl
  | cons line front ih =>
    rcases getsOver_or_refuses s number line with ⟨t, hover⟩ | ⟨reason, hrefuses⟩
    · rw [hover.run] at h
      rw [List.cons_append, hover.run, ih t (number + 1) h, hover.nextAll, List.length_cons,
        Nat.add_assoc, Nat.add_comm 1]
    · rw [hrefuses.run] at h
      cases h

/-- The lines of `front` go through and `line` after them is refused. -/
structure RefusedAfter (s : Loading) (number : Nat) (front : List (List Char)) (line : List Char)
    (reason : LineError) : Prop where
  goesThrough : (s.run number front).2 = none
  refuses : (s.nextAll (numberedRecords number front)).Refuses (number + front.length) line reason

theorem RefusedAfter.run {s : Loading} {number : Nat} {front : List (List Char)} {line : List Char}
    {reason : LineError} (h : s.RefusedAfter number front line reason) (rest : List (List Char)) :
    s.run number (front ++ line :: rest) =
      ((s.nextAll (numberedRecords number front)).enter (kindOfLine? line),
        some ⟨number + front.length, reason⟩) := by
  rw [run_append s number front _ h.goesThrough, h.refuses.run]

/-- A load that fails does so on a line after lines that go through. -/
theorem exists_refusedAfter (s : Loading) (number : Nat) (ls : List (List Char)) (e : LoadError)
    (h : (s.run number ls).2 = some e) :
    ∃ front line back, ls = front ++ line :: back ∧ e.line = number + front.length ∧
      s.RefusedAfter number front line e.reason := by
  -- Induction on the lines, from whatever state the lines before them led to.
  induction ls generalizing s number with
  | nil => cases h
  | cons first ls ih =>
    rcases getsOver_or_refuses s number first with ⟨t, hover⟩ | ⟨reason, hrefuses⟩
    · rw [hover.run] at h
      obtain ⟨front, line, back, rfl, hnumber, hafter⟩ := ih t (number + 1) h
      have hlength : number + (first :: front).length = number + 1 + front.length := by
        rw [List.length_cons]
        omega
      refine ⟨first :: front, line, back, rfl, hnumber.trans hlength.symm, ?_, ?_⟩
      · rw [hover.run]
        exact hafter.goesThrough
      · rw [hover.nextAll, hlength]
        exact hafter.refuses
    · rw [hrefuses.run] at h
      cases h
      exact ⟨[], first, ls, rfl, rfl, rfl, hrefuses⟩

end Loading

/-- Whether one of the records closes the function that is open before it. -/
def anyCloses (rs : List Record) : Bool := rs.any fun r => Loading.closes r.kind

/-- The function of the last `FUNC` record with its lines, unless a record after it closes it. -/
def openBlock? : List Record → Option FunctionBlock
  | [] => none
  | .function head :: rs => if anyCloses rs then openBlock? rs else some ⟨head, leadingLines rs⟩
  | _ :: rs => openBlock? rs

theorem openBlock?_eq_none (rs : List Record) (h : ¬ anyCloses rs = true) :
    openBlock? rs = none := by
  induction rs with
  | nil => rfl
  | cons r rs ih =>
    cases r with
    | function head => exact absurd rfl h
    | publicSymbol | layout | mismatchedLayout | cfiInit | cfiDelta => exact absurd rfl h
    | ignored | header | file | line => exact ih h

/-- The function of a block that is not closed yet. -/
def FunctionBlock.opened (b : FunctionBlock) : OpenFunction :=
  ⟨b.head.base, b.head.size, b.function⟩

namespace Loading

/-- The function that is open after records, by the records alone if one of them closed the function
that was open before. -/
theorem nextAll_openFunction (s : Loading) (rs : List (Nat × Record)) :
    (s.nextAll rs).openFunction =
      if anyCloses (rs.map Prod.snd) then (openBlock? (rs.map Prod.snd)).map FunctionBlock.opened
      else s.openFunction.map (·.withLines (leadingLines (rs.map Prod.snd))) := by
  induction rs generalizing s with
  | nil =>
    rw [nextAll_nil]
    cases s.openFunction <;> rfl
  | cons p rs ih =>
    obtain ⟨number, r⟩ := p
    rw [nextAll_cons, ih, next_openFunction, List.map_cons]
    -- Only a `FUNC` record opens a function; a record that closes one leaves none open.
    cases r with
    | function head =>
      rw [if_pos (show anyCloses (.function head :: rs.map Prod.snd) = true from rfl), openBlock?]
      split <;> rfl
    | ignored | header | file => rfl
    | line => cases s.openFunction <;> rfl
    | publicSymbol | layout | mismatchedLayout | cfiInit | cfiDelta =>
      by_cases hany : anyCloses (rs.map Prod.snd) = true
      · rw [if_pos hany]
        rfl
      · have hnone := openBlock?_eq_none _ hany
        rw [if_neg hany]
        exact (congrArg (Option.map FunctionBlock.opened) hnone).symm

theorem openFunction_of_records (t : Tables) (rs : List (Nat × Record)) :
    (nextAll ⟨t, none, false, []⟩ rs).openFunction =
      (openBlock? (rs.map Prod.snd)).map FunctionBlock.opened := by
  rw [nextAll_openFunction]
  split
  · rfl
  · rename_i hany
    rw [openBlock?_eq_none _ hany]
    rfl

end Loading

/-- `lacking` is `stored` without the entry of the function that the records leave open. It is all of
`stored` if there is no such function or its range cannot be stored. -/
def LacksOpen (rs : List Record) (stored lacking : RangeMap Function) : Prop :=
  match openBlock? rs with
  | none => lacking = stored
  | some b =>
    match lacking.store? (b.range.map FunctionBlock.function) with
    | none => lacking = stored
    | some functions =>
      stored = functions ∧ lacking.entries = stored.entries.erase b.head.base

theorem lacksOpen_closedFunctions (t : Tables) (rs : List (Nat × Record)) :
    LacksOpen (rs.map Prod.snd) (Loading.nextAll ⟨t, none, false, []⟩ rs).closedFunctions
      (Loading.nextAll ⟨t, none, false, []⟩ rs).tables.functions := by
  unfold LacksOpen Loading.closedFunctions
  rw [Loading.openFunction_of_records]
  generalize (Loading.nextAll ⟨t, none, false, []⟩ rs).tables.functions = functions
  cases openBlock? (rs.map Prod.snd) with
  | none => rfl
  | some b =>
    have hoffer : functions.offerAll (((some b).map FunctionBlock.opened).toList.map
        OpenFunction.range) = functions.offer (b.range.map FunctionBlock.function) := rfl
    rw [hoffer, RangeMap.offer]
    dsimp only
    cases hstore : functions.store? (b.range.map FunctionBlock.function) with
    | none => rfl
    | some stored => exact ⟨rfl, (RangeMap.erase_of_store?_eq_some _ _ _ hstore).symm⟩

theorem enter_tables_of_line (s : Loading) (line : List Char) :
    (s.enter (kindOfLine? line)).tables =
      if firstWord line ∈ closingWords then { s.tables with functions := s.closedFunctions }
      else s.tables := by
  unfold Loading.enter
  simp only [any_closes_iff]
  split
  · exact s.close_tables
  · rfl

/-- What a refused line leaves in the tables, against what the lines before it load. -/
theorem Loading.RefusedAfter.tables {t : Tables} {front : List (List Char)} {line : List Char}
    {reason : LineError} (h : RefusedAfter ⟨t, none, false, []⟩ 1 front line reason)
    (back : List (List Char)) :
    let failed := (Loading.run ⟨t, none, false, []⟩ 1 (front ++ line :: back)).1.tables
    let before := (Loading.run ⟨t, none, false, []⟩ 1 front).1.tables
    failed = { before with functions := failed.functions } ∧
      if firstWord line ∈ closingWords then failed.functions = before.functions
      else LacksOpen (front.filterMap recordOfLine?) before.functions failed.functions := by
  intro failed before
  have hlacks := lacksOpen_closedFunctions t (numberedRecords 1 front)
  have hfailed : failed = _ := congrArg (·.1.tables) (h.run back)
  have hbefore : before = _ := congrArg Loading.tables (Loading.run_eq_nextAll _ 1 front h.goesThrough)
  rw [map_snd_numberedRecords] at hlacks
  rw [enter_tables_of_line] at hfailed
  rw [Loading.close_tables] at hbefore
  by_cases hcloses : firstWord line ∈ closingWords
  · rw [if_pos hcloses] at hfailed ⊢
    rw [hfailed, hbefore]
    exact ⟨rfl, rfl⟩
  · rw [if_neg hcloses] at hfailed ⊢
    rw [hfailed, hbefore]
    exact ⟨rfl, hlacks⟩

/-- The load of a module's data, as a run over its lines. -/
def loadOf (m : TextModule) (ls : List (List Char)) : Loading × Option LoadError :=
  Loading.run ⟨m.tables, none, false, []⟩ 1 ls

theorem parse_error (m : TextModule) (data : SymbolBuffer) :
    (TextModule.backend.parse m data).error =
      (loadOf m data.lines).2.map fun e => ⟨e.line, e.reason.message⟩ := rfl

theorem parse_loaded (m : TextModule) (data : SymbolBuffer) :
    (TextModule.backend.parse m data).loaded = { m with tables := (loadOf m data.lines).1.tables } := rfl

theorem parse_tables (m : TextModule) (data : SymbolBuffer) :
    (TextModule.backend.parse m data).loaded.tables = (loadOf m data.lines).1.tables := rfl

theorem loadOf_firstLines (m : TextModule) (data : SymbolBuffer) (n : Nat) :
    loadOf m (data.firstLines n).lines = loadOf m (data.lines.take n) := by
  by_cases hn : n = 0
  · -- No lines at all are one blank line when they are read.
    subst hn
    rfl
  · rw [data.lines_firstLines n hn]

theorem recordsOf_firstLines (data : SymbolBuffer) (n : Nat) :
    recordsOf (Utf8.decodeLossy (data.firstLines n).text) =
      (data.lines.take n).filterMap recordOfLine? := by
  by_cases hn : n = 0
  · subst hn
    rfl
  · rw [← data.lines_firstLines n hn]
    rfl

/-- A load that fails names the first line that is wrong. The lines before it load by themselves,
nothing after it matters, and the tables are left as the lines before it fill them, but for a function
that is still open there. -/
theorem refused_at_first_wrong_line (m : TextModule) (data : SymbolBuffer) (e : ParseError)
    (h : (TextModule.backend.parse m data).error = some e) :
    ∃ n line, e.line = n + 1 ∧ data.lines[n]? = some line ∧
      (TextModule.backend.parse m (data.firstLines n)).error = none ∧
      (∀ rest, (TextModule.backend.parse m
        ⟨(data.firstLines (n + 1)).content ++ Utf8.newline :: rest⟩).error = some e) ∧
      let failed := (TextModule.backend.parse m data).loaded.tables
      let before := (TextModule.backend.parse m (data.firstLines n)).loaded.tables
      failed = { before with functions := failed.functions } ∧
      if firstWord line ∈ closingWords then failed.functions = before.functions
      else LacksOpen (recordsOf (Utf8.decodeLossy (data.firstLines n).text)) before.functions
        failed.functions := by
  obtain ⟨error, herror, rfl⟩ := Option.map_eq_some_iff.mp h
  obtain ⟨front, line, back, hlines, hnumber, hafter⟩ :=
    Loading.exists_refusedAfter _ 1 data.lines error herror
  have htake : data.lines.take front.length = front := by
    rw [hlines, List.take_left]
  have htakeNext : data.lines.take (front.length + 1) = front ++ [line] := by
    rw [hlines, List.take_append, List.take_of_length_le (Nat.le_succ _), Nat.add_sub_cancel_left]
    rfl
  have hbefore : loadOf m (data.firstLines front.length).lines = loadOf m front := by
    rw [loadOf_firstLines, htake]
  -- The number of the refused line is counted by the load itself.
  have hreplay : (⟨1 + front.length, error.reason⟩ : LoadError) = error := by
    rw [← hnumber]
  refine ⟨front.length, line, hnumber.trans (Nat.add_comm _ _), ?_, ?_, ?_, ?_⟩
  · rw [hlines, List.getElem?_append_right (Nat.le_refl _), Nat.sub_self]
    rfl
  · rw [parse_error, hbefore]
    exact Option.map_eq_none_iff.mpr hafter.goesThrough
  · intro rest
    rw [parse_error, data.lines_firstLines_append _ (Nat.succ_ne_zero _), htakeNext,
      List.append_assoc, List.singleton_append, loadOf, hafter.run, hreplay]
    rfl
  · rw [parse_tables, parse_tables, hbefore, recordsOf_firstLines, htake, hlines]
    exact hafter.tables back

/-- A file with a line of no known kind, where a function is open. -/
def unknownRecordFile : SymbolBuffer where
  content := ["FILE 1 a", "FUNC 10 8 0 f", "12 4 7 1", "FOO", "PUBLIC 20 0 g"].flatMap fun line =>
    (SymbolBuffer.ofText (line ++ "\n")).content

theorem refused_unknownRecordFile :
    let parse := TextModule.backend.parse (TextModule.backend.create "m")
    let failed := (parse unknownRecordFile).loaded.tables.functions
    let before := (parse (unknownRecordFile.firstLines 3)).loaded.tables.functions
    (parse unknownRecordFile).error = some ⟨4, "unknown record type"⟩ ∧
    (parse (unknownRecordFile.firstLines 3)).error = none ∧
    (∀ rest, (parse ⟨(unknownRecordFile.firstLines 4).content ++ Utf8.newline :: rest⟩).error =
      some ⟨4, "unknown record type"⟩) ∧
    before.entries.contains 0x10 = true ∧ failed.entries = before.entries.erase 0x10 := by
  intro parse failed before
  have herror : (parse unknownRecordFile).error = some ⟨4, "unknown record type"⟩ := by
    decide +kernel
  have hrecords : recordsOf (Utf8.decodeLossy (unknownRecordFile.firstLines 3).text) =
      [.file 1 "a", .function ⟨0x10, 8, 0, "f"⟩, .line 0x12 4 ⟨7, 1⟩] := by decide +kernel
  have hthird : unknownRecordFile.lines[3]? = some "FOO".toList := by decide +kernel
  obtain ⟨n, line, hn, hline, hbefore, hany, -, hfunctions⟩ :=
    refused_at_first_wrong_line _ unknownRecordFile _ herror
  obtain rfl : n = 3 := Nat.succ.inj hn.symm
  obtain rfl : line = "FOO".toList := Option.some.inj (hline.symm.trans hthird)
  rw [if_neg (by decide), hrecords] at hfunctions
  refine ⟨herror, hbefore, hany, by decide +kernel, ?_⟩
  have hstore : failed.store? ⟨0x10, 8, ⟨"f", 0, (∅ : RangeMap SourceLine).offer
      ⟨0x12, 4, ⟨7, 1⟩⟩⟩⟩ = some before := by decide +kernel
  have hopen : openBlock? [.file 1 "a", .function ⟨0x10, 8, 0, "f"⟩, .line 0x12 4 ⟨7, 1⟩] =
      some ⟨⟨0x10, 8, 0, "f"⟩, [⟨0x12, 4, ⟨7, 1⟩⟩]⟩ := rfl
  rw [LacksOpen, hopen] at hfunctions
  dsimp only at hfunctions
  split at hfunctions
  · rename_i hnone
    cases hnone.symm.trans hstore
  · exact hfunctions.2

end SymbolFile

end Symbolication
