import Symbolication.Proofs.RangeMap.Keep
import Symbolication.SymbolFile.Load

/-!
A symbol file as the list of its records. A load that is not refused does what the records do one
after the other, and it is not refused exactly if every line that is not blank holds a record and no
record stands where it may not.
-/

namespace Symbolication.Text.FieldReader

variable {α β : Type}

/-- Whatever the reader reads satisfies `P`. -/
def Yields (reader : FieldReader α) (P : α → Prop) : Prop :=
  ∀ rest a rest', reader rest = some (a, rest') → P a

theorem yields_pure {P : α → Prop} (a : α) (h : P a) : (pure a : FieldReader α).Yields P := by
  intro rest b rest' hb
  cases hb
  exact h

theorem yields_bind {P : β → Prop} (reader : FieldReader α) (f : α → FieldReader β)
    (h : ∀ a, (f a).Yields P) : (reader >>= f).Yields P := by
  intro rest b rest' hb
  obtain ⟨⟨a, mid⟩, -, hf⟩ := Option.bind_eq_some_iff.mp hb
  exact h a mid b rest' hf

theorem Yields.read? {P : α → Prop} {reader : FieldReader α} (h : reader.Yields P)
    (line : List Char) (a : α) (ha : reader.read? line = some a) : P a := by
  obtain ⟨⟨b, rest'⟩, hb, rfl⟩ := Option.map_eq_some_iff.mp ha
  exact h _ b rest' hb

end Symbolication.Text.FieldReader

namespace Symbolication.SymbolFile

open Text
open FieldReader (yields_pure yields_bind)

namespace Record

/-- The kind of line that a record stands on. -/
def kind : Record → RecordKind
  | ignored => .ignored
  | header _ => .header
  | file .. => .file
  | function _ => .function
  | publicSymbol .. => .publicSymbol
  | line .. => .line
  | layout .. | mismatchedLayout .. | cfiInit .. | cfiDelta .. => .stack

theorem lineReader_yields : lineReader.Yields fun r => r.kind = .line := by
  unfold lineReader
  iterate 5 refine yields_bind _ _ fun _ => ?_
  exact yields_pure _ rfl

theorem layoutReader_yields : layoutReader.Yields fun r => r.kind = .stack := by
  unfold layoutReader
  iterate 11 refine yields_bind _ _ fun _ => ?_
  dsimp only
  split
  · exact yields_pure _ rfl
  · refine yields_bind _ _ fun _ => ?_
    exact yields_pure _ rfl

theorem cfiInitReader_yields : cfiInitReader.Yields fun r => r.kind = .stack := by
  unfold cfiInitReader
  iterate 3 refine yields_bind _ _ fun _ => ?_
  exact yields_pure _ rfl

theorem cfiDeltaReader_yields : cfiDeltaReader.Yields fun r => r.kind = .stack := by
  unfold cfiDeltaReader
  iterate 2 refine yields_bind _ _ fun _ => ?_
  exact yields_pure _ rfl

theorem kind_of_readStack? (rest : List Char) (r : Record) (h : readStack? rest = some r) :
    r.kind = .stack := by
  obtain ⟨rest, -, h⟩ := Option.bind_eq_some_iff.mp h
  split at h
  · exact layoutReader_yields.read? _ _ h
  · split at h
    · split at h
      · exact cfiInitReader_yields.read? _ _ h
      · exact cfiDeltaReader_yields.read? _ _ h
    · cases h

/-- A line is read as a record of the kind that its first word announces. -/
theorem kind_of_read? (k : RecordKind) (line : List Char) (r : Record)
    (h : Record.read? k line = some r) : r.kind = k := by
  cases k with
  | ignored =>
    cases h
    rfl
  | stack => exact kind_of_readStack? _ r h
  | line => exact lineReader_yields.read? _ _ h
  | header | file | function | publicSymbol =>
    obtain ⟨a, -, rfl⟩ := Option.map_eq_some_iff.mp h
    rfl

end Record

/-- The record on a line, wherever the line stands. -/
def recordOfLine? (line : List Char) : Option Record :=
  (kindOfLine? line).bind fun kind => Record.read? kind line

theorem recordOfLine?_nil : recordOfLine? [] = none := rfl

theorem kindOfLine?_of_recordOfLine? (line : List Char) (r : Record)
    (h : recordOfLine? line = some r) : kindOfLine? line = some r.kind := by
  obtain ⟨k, hk, hread⟩ := Option.bind_eq_some_iff.mp h
  rw [hk, Record.kind_of_read? k line r hread]

/-- The records of a text, in order. -/
def recordsOf (text : List Char) : List Record := (lines text).filterMap recordOfLine?

/-- The records on some lines with their line numbers, when the first line has the number `number`. -/
def numberedRecords (number : Nat) : List (List Char) → List (Nat × Record)
  | [] => []
  | line :: rest =>
    (recordOfLine? line).toList.map (number, ·) ++ numberedRecords (number + 1) rest

theorem map_snd_numberedRecords (number : Nat) (ls : List (List Char)) :
    (numberedRecords number ls).map Prod.snd = ls.filterMap recordOfLine? := by
  induction ls generalizing number with
  | nil => rfl
  | cons line rest ih =>
    rw [numberedRecords, List.map_append, ih]
    cases h : recordOfLine? line <;> simp [h]

/-- Whether records may stand in this order, when records came before them if `started`, and a
function is open if `inFunction`. -/
def placed (started inFunction : Bool) : List Record → Bool
  | [] => true
  | r :: rs =>
    match r.kind with
    | .header => !started && placed true inFunction rs
    | .line => inFunction && placed true true rs
    | .function => placed true true rs
    | .publicSymbol | .stack => placed true false rs
    | .ignored | .file => placed true inFunction rs

/-- Records may be put in place of others if they may stand wherever those may. -/
theorem placed_append_congr (front : List Record) {rs ts : List Record}
    (h : ∀ started inFunction, placed started inFunction rs = placed started inFunction ts)
    (started inFunction : Bool) :
    placed started inFunction (front ++ rs) = placed started inFunction (front ++ ts) := by
  induction front generalizing started inFunction with
  | nil => exact h started inFunction
  | cons r front ih =>
    rw [List.cons_append, List.cons_append, placed, placed]
    simp only [ih]

/-- Records other than headers may stand after any records, and where a function is open all the
more. -/
theorem placed_of_placed (rs : List Record) (hheader : ∀ r ∈ rs, r.kind ≠ .header)
    {before after weak strong : Bool} (hle : weak = true → strong = true)
    (h : placed before weak rs = true) : placed after strong rs = true := by
  induction rs generalizing before after weak strong with
  | nil => rfl
  | cons r rs ih =>
    obtain ⟨hr, hrs⟩ := List.forall_mem_cons.mp hheader
    cases hkind : r.kind with
    | header => exact absurd hkind hr
    | line =>
      simp only [placed, hkind, Bool.and_eq_true] at h ⊢
      exact ⟨hle h.1, ih hrs id h.2⟩
    | ignored | file =>
      simp only [placed, hkind] at h ⊢
      exact ih hrs hle h
    | function | publicSymbol | stack =>
      -- From here on it does not matter what was open.
      simp only [placed, hkind] at h ⊢
      exact ih hrs id h

/-- Records of a file may follow those of another file if no header is among them. -/
theorem placed_append (rs ts : List Record) (hheader : ∀ r ∈ ts, r.kind ≠ .header)
    (hrs : placed false false rs = true) (hts : placed false false ts = true) :
    placed false false (rs ++ ts) = true := by
  have hanywhere (started inFunction : Bool) :
      placed started inFunction ts = placed started inFunction [] := by
    have hnone : false = true → inFunction = true := fun h => absurd h Bool.false_ne_true
    exact placed_of_placed ts hheader hnone hts
  rw [placed_append_congr rs hanywhere, List.append_nil]
  exact hrs

namespace OpenFunction

/-- The function of a `FUNC` record, before its line records. -/
def ofHead (head : FunctionHead) : OpenFunction :=
  ⟨head.base, head.size, ⟨head.name, head.parameterSize, ∅⟩⟩

/-- The function with one more line, if that line's range is free. -/
def withLine (f : OpenFunction) (r : Range SourceLine) : OpenFunction :=
  { f with function := { f.function with lines := f.function.lines.offer r } }

end OpenFunction

namespace Loading

/-- The state after the record `r` on line `number`. -/
def next (s : Loading) (number : Nat) (r : Record) : Loading :=
  { (s.enter (some r.kind)).record number r with started := true }

def nextAll (s : Loading) (rs : List (Nat × Record)) : Loading :=
  rs.foldl (fun s p => s.next p.1 p.2) s

@[simp] theorem nextAll_nil (s : Loading) : s.nextAll [] = s := rfl

@[simp] theorem nextAll_cons (s : Loading) (number : Nat) (r : Record) (rs : List (Nat × Record)) :
    s.nextAll ((number, r) :: rs) = (s.next number r).nextAll rs := rfl

@[simp] theorem close_openFunction (s : Loading) : s.close.openFunction = none := by
  unfold close
  cases h : s.openFunction with
  | none => exact h
  | some f =>
    dsimp only
    split <;> rfl

@[simp] theorem close_started (s : Loading) : s.close.started = s.started := by
  unfold close
  split
  · rfl
  · dsimp only
    split <;> rfl

@[simp] theorem enter_started (s : Loading) (kind : Option RecordKind) :
    (s.enter kind).started = s.started := by
  unfold enter
  split
  · exact close_started s
  · rfl

theorem next_started (s : Loading) (number : Nat) (r : Record) :
    (s.next number r).started = true := rfl

theorem addLine_openFunction (s : Loading) (number : Nat) (r : Range SourceLine) :
    (s.addLine number r).openFunction = s.openFunction.map (·.withLine r) := by
  unfold addLine
  cases h : s.openFunction with
  | none => simp [h]
  | some f =>
    dsimp only
    split
    · -- A line of size 0 is not even offered to the map; the map would refuse it.
      rename_i hsize
      have hstore : r.isStorable = false := by simp [Range.isStorable, hsize]
      simp [h, OpenFunction.withLine, RangeMap.offer_of_not_storable _ _ hstore]
    · split
      · rename_i hlines
        simp [OpenFunction.withLine, RangeMap.offer, hlines]
      · rename_i hlines
        simp [OpenFunction.withLine, RangeMap.offer, hlines, say, h]

theorem addLayout_openFunction (s : Loading) (r : Range FrameLayout) :
    (s.addLayout r).openFunction = s.openFunction := by
  unfold addLayout
  split
  · split <;> rfl
  · split <;> rfl
  · rfl

/-- What a record does to the function that is open. -/
theorem next_openFunction (s : Loading) (number : Nat) (r : Record) :
    (s.next number r).openFunction =
      match r with
      | .function head => some (.ofHead head)
      | .line base size source => s.openFunction.map (·.withLine ⟨base, size, source⟩)
      | .ignored | .header _ | .file .. => s.openFunction
      | .publicSymbol .. | .layout .. | .mismatchedLayout .. | .cfiInit .. | .cfiDelta .. => none := by
  cases r with
  | ignored | header | file | function | publicSymbol | mismatchedLayout | cfiDelta =>
    simp [next, record, Record.kind, enter, closes, say, OpenFunction.ofHead]
  | line base size source =>
    simp [next, record, Record.kind, enter, closes, addLine_openFunction]
  | layout base size layout =>
    simp [next, record, Record.kind, enter, closes, addLayout_openFunction]
  | cfiInit base size rules =>
    simp only [next, record, Record.kind, enter, closes, Option.any_some, if_true]
    split <;> simp [say]

theorem placed_cons_iff (s : Loading) (number : Nat) (r : Record) (rs : List Record) :
    placed s.started s.openFunction.isSome (r :: rs) = true ↔
      (s.enter (some r.kind)).misplaced? r.kind = none ∧
        placed (s.next number r).started (s.next number r).openFunction.isSome rs = true := by
  rw [next_started, next_openFunction, placed]
  cases r with
  | header => simp [Record.kind, misplaced?]
  | line => cases h : s.openFunction <;> simp [Record.kind, misplaced?, enter, closes, h]
  | ignored | file | function | publicSymbol | layout | mismatchedLayout | cfiInit | cfiDelta =>
    simp [Record.kind, misplaced?]

theorem accept_eq_ok_iff (s t : Loading) (kind : Option RecordKind) (number : Nat)
    (line : List Char) :
    s.accept kind number line = .ok t ↔
      ∃ k r, kind = some k ∧ s.misplaced? k = none ∧ Record.read? k line = some r ∧
        { s.record number r with started := true } = t := by
  unfold accept
  split
  · simp
  · rename_i k
    split
    · rename_i reason hmis
      simp [hmis]
    · rename_i hmis
      split
      · rename_i hread
        simp [hread]
      · rename_i r hread
        simp [hread, hmis]

/-- A line that is not blank is got over exactly if it holds a record that may stand there. -/
theorem run_cons (s : Loading) (number : Nat) (line : List Char) (rest : List (List Char))
    (hline : line ≠ []) :
    (∃ r, recordOfLine? line = some r ∧ (s.enter (some r.kind)).misplaced? r.kind = none ∧
      s.run number (line :: rest) = (s.next number r).run (number + 1) rest) ∨
    (∀ r, recordOfLine? line = some r → (s.enter (some r.kind)).misplaced? r.kind ≠ none) ∧
      (s.run number (line :: rest)).2 ≠ none := by
  have hempty : line.isEmpty = false := by simpa using hline
  cases hacc : (s.enter (kindOfLine? line)).accept (kindOfLine? line) number line with
  | ok t =>
    obtain ⟨k, r, hk, hmis, hread, rfl⟩ := (accept_eq_ok_iff _ _ _ _ _).mp hacc
    have hkind := Record.kind_of_read? k line r hread
    refine Or.inl ⟨r, by simp [recordOfLine?, hk, hread], ?_, ?_⟩
    · rw [hkind, ← hk]
      exact hmis
    · rw [run, hempty]
      simp only [hacc, Bool.false_eq_true, if_false]
      rw [hk, next, hkind]
  | error reason =>
    refine Or.inr ⟨?_, ?_⟩
    · intro r hr hmis
      obtain ⟨k, hk, hread⟩ := Option.bind_eq_some_iff.mp hr
      have hkind := Record.kind_of_read? k line r hread
      rw [hkind, ← hk] at hmis
      have hok := (accept_eq_ok_iff _ _ _ number _).mpr ⟨k, r, hk, hmis, hread, rfl⟩
      rw [hacc] at hok
      cases hok
    · rw [run, hempty]
      simp [hacc]

theorem run_nil_line (s : Loading) (number : Nat) (rest : List (List Char)) :
    s.run number ([] :: rest) = s.run (number + 1) rest := rfl

/-- A load goes through exactly if every line that is not blank holds a record, and the records
stand in an order that is allowed. -/
theorem run_eq_none_iff (s : Loading) (number : Nat) (ls : List (List Char)) :
    (s.run number ls).2 = none ↔
      (∀ line ∈ ls, line ≠ [] → (recordOfLine? line).isSome) ∧
        placed s.started s.openFunction.isSome (ls.filterMap recordOfLine?) = true := by
  induction ls generalizing s number with
  | nil => simp [run, placed]
  | cons line rest ih =>
    by_cases hline : line = []
    · subst hline
      rw [run_nil_line, ih, List.filterMap_cons_none recordOfLine?_nil]
      simp
    · -- Either the line is got over, or the load ends on it.
      rcases run_cons s number line rest hline with ⟨r, hr, hmis, hrun⟩ | ⟨hno, hrun⟩
      · rw [hrun, ih, List.filterMap_cons_some hr, placed_cons_iff s number]
        simp [hr, hmis]
      · refine iff_of_false hrun ?_
        intro h
        obtain ⟨hall, hplaced⟩ := h
        obtain ⟨r, hr⟩ := Option.isSome_iff_exists.mp (hall line List.mem_cons_self hline)
        rw [List.filterMap_cons_some hr, placed_cons_iff s number] at hplaced
        exact hno r hr hplaced.1

/-- A load that goes through does what its records do, and closes the function still open. -/
theorem run_eq_nextAll (s : Loading) (number : Nat) (ls : List (List Char))
    (h : (s.run number ls).2 = none) :
    (s.run number ls).1 = (s.nextAll (numberedRecords number ls)).close := by
  induction ls generalizing s number with
  | nil => rfl
  | cons line rest ih =>
    by_cases hline : line = []
    · subst hline
      exact ih s (number + 1) h
    · rcases run_cons s number line rest hline with ⟨r, hr, -, hrun⟩ | ⟨-, hrun⟩
      · rw [hrun] at h ⊢
        rw [ih _ _ h, numberedRecords, hr]
        rfl
      · exact absurd h hrun

end Loading

theorem loadText_error_eq_none_iff (t : Tables) (text : List Char) :
    (t.loadText text).error = none ↔
      (∀ line ∈ lines text, line ≠ [] → (recordOfLine? line).isSome) ∧
        placed false false (recordsOf text) = true :=
  Loading.run_eq_none_iff ⟨t, none, false, []⟩ 1 (lines text)

end Symbolication.SymbolFile
