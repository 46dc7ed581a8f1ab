import Symbolication.Proofs.SymbolFile.Grammar
import Symbolication.Resolver.Backend

/-!
Which symbol files are accepted: those whose lines all hold records or nothing, with the `MODULE`
record first if there is one, and line records only where a function is open.
-/

namespace Symbolication.SymbolFile

open Text

/-- The last of some kinds of records that opens a function or closes one. -/
def lastBoundary? (kinds : List RecordKind) : Option RecordKind :=
  (kinds.filter fun kind => kind = .function ∨ kind = .publicSymbol ∨ kind = .stack).getLast?

theorem lastBoundary?_cons (kind : RecordKind) (kinds : List RecordKind) :
    lastBoundary? (kind :: kinds) = (lastBoundary? kinds).or (lastBoundary? [kind]) := by
  unfold lastBoundary?
  rw [← List.singleton_append, List.filter_append, List.getLast?_append]

/-- The records stand in an order that is allowed. -/
structure WellPlaced (rs : List Record) : Prop where
  headerFirst (front back : List Record) (r : Record) :
    rs = front ++ r :: back → r.kind = .header → front = []
  lineInFunction (front back : List Record) (r : Record) :
    rs = front ++ r :: back → r.kind = .line → lastBoundary? (front.map Record.kind) = some .function

namespace WellPlaced

/-- Whether a function is open after records of these kinds, if one was open before when
`inFunction`. -/
def openAfter (inFunction : Bool) (kinds : List RecordKind) : Bool :=
  (lastBoundary? kinds).elim inFunction (· = .function)

theorem openAfter_cons (inFunction : Bool) (kind : RecordKind) (kinds : List RecordKind) :
    openAfter inFunction (kind :: kinds) = openAfter (openAfter inFunction [kind]) kinds := by
  unfold openAfter
  rw [lastBoundary?_cons]
  cases lastBoundary? kinds <;> rfl

theorem openAfter_false_iff (kinds : List RecordKind) :
    openAfter false kinds = true ↔ lastBoundary? kinds = some .function := by
  unfold openAfter
  cases lastBoundary? kinds with
  | none => simp
  | some kind => simp

/-- What `placed` allows, read off at every record by the records before it. -/
theorem placed_iff (started inFunction : Bool) (rs : List Record) :
    placed started inFunction rs = true ↔
      ∀ front back r, rs = front ++ r :: back →
        (r.kind = .header → started = false ∧ front = []) ∧
        (r.kind = .line → openAfter inFunction (front.map Record.kind) = true) := by
  -- The first record moves the two flags on; the rest is judged from there.
  induction rs generalizing started inFunction with
  | nil => simp [placed]
  | cons r rs ih =>
    have hplaced : placed started inFunction (r :: rs) = true ↔
        ((r.kind = .header → started = false) ∧ (r.kind = .line → inFunction = true)) ∧
          placed true (openAfter inFunction [r.kind]) rs = true := by
      cases hkind : r.kind <;> cases started <;> cases inFunction <;>
        simp [placed, hkind, openAfter, lastBoundary?]
    rw [hplaced, ih]
    constructor
    · rintro ⟨hhere, hrest⟩ front back q hsplit
      cases front with
      | nil =>
        cases hsplit
        exact ⟨fun h => ⟨hhere.1 h, rfl⟩, hhere.2⟩
      | cons p front =>
        obtain ⟨rfl, hrs⟩ := List.cons.inj hsplit
        obtain ⟨hheader, hline⟩ := hrest front back q hrs
        refine ⟨?_, ?_⟩
        · intro h
          cases (hheader h).1
        · intro h
          rw [List.map_cons, openAfter_cons]
          exact hline h
    · intro hall
      refine ⟨?_, ?_⟩
      · obtain ⟨hheader, hline⟩ := hall [] rs r rfl
        exact ⟨fun h => (hheader h).1, hline⟩
      · intro front back q hrs
        obtain ⟨hheader, hline⟩ := hall (r :: front) back q (congrArg (r :: ·) hrs)
        refine ⟨?_, ?_⟩
        · intro h
          cases (hheader h).2
        · intro h
          rw [← openAfter_cons]
          exact hline h

theorem iff_placed (rs : List Record) : WellPlaced rs ↔ placed false false rs = true := by
  rw [placed_iff]
  simp only [true_and, openAfter_false_iff]
  constructor
  · intro h front back r hsplit
    exact ⟨h.headerFirst front back r hsplit, h.lineInFunction front back r hsplit⟩
  · intro h
    constructor
    · intro front back r hsplit
      exact (h front back r hsplit).1
    · intro front back r hsplit
      exact (h front back r hsplit).2

end WellPlaced

/-- The records that lines write one by one are those that are read from them. -/
theorem forall₂_writes_iff (ls : List (List Char)) (rs : List Record) :
    List.Forall₂ (fun line r => r.Writes line) (ls.filter (· ≠ [])) rs ↔
      (∀ line ∈ ls, line ≠ [] → (recordOfLine? line).isSome) ∧ rs = ls.filterMap recordOfLine? := by
  induction ls generalizing rs with
  | nil => simp
  | cons line ls ih =>
    by_cases hline : line = []
    · subst hline
      rw [List.filterMap_cons_none recordOfLine?_nil]
      simpa using ih rs
    · rw [List.filter_cons, if_pos (decide_eq_true hline), List.forall₂_cons_left_iff,
        List.forall_mem_cons]
      simp only [ih, ← recordOfLine?_eq_some_iff line]
      constructor
      · rintro ⟨r, rs, hr, ⟨hall, rfl⟩, rfl⟩
        rw [List.filterMap_cons_some hr]
        exact ⟨⟨fun _ => Option.isSome_of_eq_some hr, hall⟩, rfl⟩
      · rintro ⟨⟨hhere, hall⟩, hrs⟩
        obtain ⟨r, hr⟩ := Option.isSome_iff_exists.mp (hhere hline)
        rw [List.filterMap_cons_some hr] at hrs
        exact ⟨r, _, hr, ⟨hall, rfl⟩, hrs⟩

/-- Loading goes through exactly on the texts of the grammar, whatever the module held before. -/
theorem parse_accepts_iff (m : TextModule) (data : SymbolBuffer) :
    (TextModule.backend.parse m data).error = none ↔
      ∃ rs, List.Forall₂ (fun line r => r.Writes line)
          ((lines (Utf8.decodeLossy data.text)).filter (· ≠ [])) rs ∧ WellPlaced rs := by
  have hload : (TextModule.backend.parse m data).error = none ↔
      (Loading.run ⟨m.tables, none, false, []⟩ 1 (lines (Utf8.decodeLossy data.text))).2 = none :=
    Option.map_eq_none_iff
  -- The records are those that are read from the lines, so there is only one choice of them.
  simp only [hload, Loading.run_eq_none_iff, forall₂_writes_iff, WellPlaced.iff_placed]
  constructor
  · rintro ⟨hall, hplaced⟩
    exact ⟨_, ⟨hall, rfl⟩, hplaced⟩
  · rintro ⟨_, ⟨hall, rfl⟩, hplaced⟩
    exact ⟨hall, hplaced⟩

end Symbolication.SymbolFile
