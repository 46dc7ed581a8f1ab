import Symbolication.Proofs.SymbolFile.Joined
import Symbolication.Proofs.SymbolFile.Outcome
import Symbolication.Proofs.Text.LineEndings

/-!
What a load does not look at. Bytes after the first nul are no part of the text, a line is read without
the carriage returns at its end, a blank line holds no record, and an `INFO`, `INLINE` or
`INLINE_ORIGIN` record says nothing. Without them the load does the same, and a line that is refused is
refused under the number that it has then.
-/

namespace Symbolication.SymbolFile

open Text (remaining goneCount)

/-- Data with the same lines load alike. -/
theorem parse_congr (m : TextModule) (data other : SymbolBuffer) (h : other.lines = data.lines) :
    (TextModule.backend.parse m other).loaded = (TextModule.backend.parse m data).loaded ∧
      (TextModule.backend.parse m other).error = (TextModule.backend.parse m data).error := by
  rw [parse_loaded, parse_loaded, parse_error, parse_error, h]
  exact ⟨rfl, rfl⟩

theorem loadOf_withoutLines (m : TextModule) (gone : Nat → List Char → Bool) (data : SymbolBuffer) :
    loadOf m (data.withoutLines gone).lines = loadOf m (remaining gone data.lines) := by
  rw [data.lines_withoutLines gone]
  split
  · -- No lines at all load like one blank line.
    rename_i hnil
    rw [hnil]
    rfl
  · rfl

section BlankLines

variable (gone : Nat → List Char → Bool) (hblank : ∀ n line, gone n line = true → line = [])

include hblank

theorem records_remaining (ls : List (List Char)) :
    (remaining gone ls).filterMap recordOfLine? = ls.filterMap recordOfLine? := by
  apply Text.filterMap_remaining
  intro n line hgone
  rw [hblank n line hgone, recordOfLine?_nil]

/-- A load without some blank lines leaves the same tables. It is refused on the same line, whose number
is less by the blank lines that are gone before it. -/
theorem loadOf_remaining (m : TextModule) (ls : List (List Char)) :
    (loadOf m (remaining gone ls)).1.tables = (loadOf m ls).1.tables ∧
      (loadOf m (remaining gone ls)).2 = (loadOf m ls).2.map fun e =>
        { e with line := e.line - goneCount gone (ls.take (e.line - 1)) } := by
  have hrecords := records_remaining gone hblank
  have hall (front : List (List Char)) (h : ∀ line ∈ front, line ≠ [] → (recordOfLine? line).isSome) :
      ∀ line ∈ remaining gone front, line ≠ [] → (recordOfLine? line).isSome :=
    fun line hline => h line (Text.mem_of_mem_remaining gone front line hline)
  cases herror : (loadOf m ls).2 with
  | none =>
    obtain ⟨hlines, hplaced⟩ := (Loading.run_eq_none_iff _ 1 ls).mp herror
    -- The same records stand in the same order, so both loads go through and have one effect.
    have hfull := loadsAs_of_accepted ls hlines hplaced
    rw [← hrecords ls] at hplaced
    have hless := loadsAs_of_accepted (remaining gone ls) (hall ls hlines) hplaced
    constructor
    · exact (hless.leaves m.tables).trans (hrecords ls ▸ (hfull.leaves m.tables).symm)
    · exact hless.answers m.tables
  | some e =>
    obtain ⟨front, line, back, rfl, hnumber, hrefused⟩ :=
      Loading.exists_refusedAfter _ 1 ls e herror
    have hlines := ((Loading.run_eq_none_iff _ 1 front).mp hrefused.goesThrough).1
    -- A refused line is not blank, so it is still there, after what is left of the lines before it.
    have hstays : gone (1 + front.length) line = false := by
      cases hgone : gone (1 + front.length) line with
      | false => rfl
      | true => exact absurd (hblank _ line hgone) hrefused.refuses.notBlank
    obtain ⟨rest, hrest⟩ := Text.remaining_append_cons gone front back line hstays
    have hfull := loadsAs_of_refused hrefused front back rfl hlines
    have hless := loadsAs_of_refused hrefused (remaining gone front) rest (hrecords front)
      (hall front hlines)
    rw [hrest]
    constructor
    · exact (hless.leaves m.tables).trans (hfull.leaves m.tables).symm
    · have hbefore : (front ++ line :: back).take (e.line - 1) = front := by
        rw [hnumber, Nat.add_sub_cancel_left, List.take_left]
      have hnew : 1 + (remaining gone front).length =
          e.line - goneCount gone ((front ++ line :: back).take (e.line - 1)) := by
        have hlength := Text.length_remaining gone front
        rw [hbefore]
        omega
      exact (hless.answers m.tables).trans (congrArg (fun n => some (LoadError.mk n e.reason)) hnew)

end BlankLines

/-- Whether the first word of a line announces a record that says nothing. -/
def isIgnoredLine (line : List Char) : Bool := RecordKind.ignored.keywords.contains (firstWord line)

theorem recordOfLine?_eq_ignored_iff (line : List Char) :
    recordOfLine? line = some .ignored ↔ isIgnoredLine line = true := by
  have hkind := kindOfLine?_eq_some_iff line .ignored (by decide)
  rw [isIgnoredLine, List.contains_iff_mem, ← hkind]
  constructor
  · exact kindOfLine?_of_recordOfLine? line .ignored
  · intro h
    rw [recordOfLine?, h]
    rfl

/-- The records on the other lines are the other records. -/
theorem records_filter_isIgnoredLine (ls : List (List Char)) :
    (ls.filter fun line => !isIgnoredLine line).filterMap recordOfLine? =
      (ls.filterMap recordOfLine?).filter fun r => decide (r ≠ .ignored) := by
  rw [List.filterMap_filter, List.filter_filterMap]
  congr 1
  funext line
  cases hignored : isIgnoredLine line with
  | true =>
    rw [(recordOfLine?_eq_ignored_iff line).mpr hignored]
    rfl
  | false =>
    have hrecord : recordOfLine? line ≠ some .ignored := by
      intro h
      rw [(recordOfLine?_eq_ignored_iff line).mp h] at hignored
      cases hignored
    cases hread : recordOfLine? line with
    | none => rfl
    | some r =>
      have hne : r ≠ .ignored := fun h => hrecord (hread.trans (congrArg some h))
      simp [Option.filter, hne]

/-- Records may stand where they stood with records between them that say nothing, and at the start all
the more. -/
theorem placed_filter (rs : List Record) (started before inFunction : Bool)
    (hstarted : started = true → before = true) (h : placed before inFunction rs = true) :
    placed started inFunction (rs.filter fun r => decide (r ≠ .ignored)) = true := by
  -- The records that are left out may have been the first ones, so `started` may be less than `before`.
  induction rs generalizing started before inFunction with
  | nil => rfl
  | cons r rs ih =>
    cases r with
    | ignored => exact ih started true inFunction (fun _ => rfl) h
    | header header =>
      have hsplit : !before = true ∧ placed true inFunction rs = true := by
        simpa [placed, Record.kind] using h
      have hfresh : started = false := by
        cases hs : started with
        | false => rfl
        | true => simp [hstarted hs] at hsplit
      have hrest := ih true true inFunction id hsplit.2
      simpa [placed, Record.kind, hfresh] using hrest
    | line base size source =>
      have hsplit : inFunction = true ∧ placed true true rs = true := by
        simpa [placed, Record.kind] using h
      have hrest := ih true true true id hsplit.2
      simpa [placed, Record.kind, hsplit.1] using hrest
    | file => exact ih true true inFunction id h
    | function => exact ih true true true id h
    | publicSymbol | layout | mismatchedLayout | cfiInit | cfiDelta => exact ih true true false id h

/-- Records that say nothing leave nothing in the tables. -/
theorem Tables.absorb_filter (t : Tables) (rs : List Record) :
    t.absorb (rs.filter fun r => decide (r ≠ .ignored)) = t.absorb rs := by
  have hput (t : Tables) (r : Record) : (if decide (r ≠ .ignored) = true then t.put r else t) = t.put r := by
    cases r <;> rfl
  have hblocks := functionBlocks_filter (fun r => decide (r ≠ .ignored)) (fun _ => rfl)
    (fun _ _ _ => rfl) rs
  unfold absorb
  rw [hblocks, List.foldl_filter]
  simp only [hput]

theorem loadOf_filter_isIgnoredLine (m : TextModule) (ls : List (List Char)) (h : (loadOf m ls).2 = none) :
    (loadOf m (ls.filter fun line => !isIgnoredLine line)).2 = none ∧
      (loadOf m (ls.filter fun line => !isIgnoredLine line)).1.tables = (loadOf m ls).1.tables := by
  obtain ⟨hall, hplaced⟩ := (Loading.run_eq_none_iff _ 1 ls).mp h
  have haccepted : (loadOf m (ls.filter fun line => !isIgnoredLine line)).2 = none := by
    apply (Loading.run_eq_none_iff _ 1 _).mpr
    constructor
    · intro line hline
      exact hall line (List.mem_of_mem_filter hline)
    · rw [records_filter_isIgnoredLine]
      exact placed_filter _ _ _ _ id hplaced
  have hfewer := Loading.run_tables_of_accepted m.tables _ haccepted
  rw [records_filter_isIgnoredLine, Tables.absorb_filter] at hfewer
  exact ⟨haccepted, hfewer.trans (Loading.run_tables_of_accepted m.tables ls h).symm⟩

/-- Lines that end in a carriage return, blank lines and what stands after the text play no part in a
load, save that a refused line is counted among the lines that are there. Nor do records that say
nothing, in data that is accepted with them. -/
theorem parse_insensitive (m : TextModule) (data : SymbolBuffer) :
    let parse := TextModule.backend.parse m
    (∀ rest, (parse (data.withTail rest)).loaded = (parse data).loaded ∧
      (parse (data.withTail rest)).error = (parse data).error) ∧
    ((parse data.withReturns).loaded = (parse data).loaded ∧
      (parse data.withReturns).error = (parse data).error) ∧
    (∀ chosen : Nat → Bool,
      let gone := fun n (line : List Char) => chosen n && line.isEmpty
      (parse (data.withoutLines gone)).loaded = (parse data).loaded ∧
      (parse (data.withoutLines gone)).error = (parse data).error.map fun e =>
        { e with line := e.line - goneCount gone (data.lines.take (e.line - 1)) }) ∧
    ((parse data).error = none →
      let fewer := data.withoutLines fun _ => isIgnoredLine
      (parse fewer).error = none ∧ (parse fewer).loaded = (parse data).loaded) := by
  intro parse
  refine ⟨?_, ?_, ?_, ?_⟩
  · intro rest
    apply parse_congr
    exact congrArg (fun text => Text.lines (Utf8.decodeLossy text)) (data.text_withTail rest)
  · exact parse_congr m data data.withReturns data.lines_withReturns
  · intro chosen gone
    have hblank : ∀ n line, gone n line = true → line = [] := by
      intro n line hgone
      exact List.isEmpty_iff.mp (Bool.and_eq_true_iff.mp hgone).2
    obtain ⟨htables, herror⟩ := loadOf_remaining gone hblank m data.lines
    constructor
    · rw [parse_loaded, parse_loaded, loadOf_withoutLines, htables]
    · rw [parse_error, parse_error, loadOf_withoutLines, herror, Option.map_map, Option.map_map]
      rfl
  · intro haccepted fewer
    have hload : loadOf m fewer.lines = loadOf m (data.lines.filter fun line => !isIgnoredLine line) := by
      rw [loadOf_withoutLines, Text.remaining_of_const]
    obtain ⟨herror, htables⟩ :=
      loadOf_filter_isIgnoredLine m data.lines (Option.map_eq_none_iff.mp haccepted)
    constructor
    · rw [parse_error, hload, herror]
      rfl
    · rw [parse_loaded, parse_loaded, hload, htables]

/-- A file with an ignored record and a blank line between a function and its line, an ill-formed byte in
a name, and something else after a nul. -/
def paddedFile : SymbolBuffer where
  content :=
    (["MODULE os cpu id m", "INFO CODE_ID 0", "FUNC 10 8 0 f"].flatMap fun line =>
      (SymbolBuffer.ofText (line ++ "\n")).content) ++
    ["INLINE 0 3 1 2 12 2", "\r", "12 4 7 1", "INLINE_ORIGIN 2 g", "PUBLIC 40 0 "].flatMap (fun line =>
      (SymbolBuffer.ofText ("\n" ++ line)).content) ++ [0xFF, 0, 0x46]

/-- The file without the ignored records. -/
def unpaddedFile : SymbolBuffer where
  content :=
    ["MODULE os cpu id m", "FUNC 10 8 0 f", "", "\r", "12 4 7 1"].flatMap (fun line =>
      (SymbolBuffer.ofText (line ++ "\n")).content) ++
    (SymbolBuffer.ofText "PUBLIC 40 0 ").content ++ [0xFF, 0, 0x46]

theorem parse_insensitive_paddedFile :
    let parse := TextModule.backend.parse (TextModule.backend.create "m")
    (parse paddedFile).error = none ∧ (parse unpaddedFile).error = none ∧
    (parse unpaddedFile).loaded = (parse paddedFile).loaded ∧
    (parse paddedFile).loaded.tables.functions.entries.keys = [0x10] ∧
    (parse paddedFile).loaded.tables.publicSymbols.get? 0x40 = some ⟨"\uFFFD", 0⟩ := by
  intro parse
  have haccepted : (parse paddedFile).error = none := by decide +kernel
  have hfewer : paddedFile.withoutLines (fun _ => isIgnoredLine) = unpaddedFile := by decide +kernel
  obtain ⟨-, -, -, hignored⟩ := parse_insensitive (TextModule.backend.create "m") paddedFile
  obtain ⟨herror, hloaded⟩ := hignored haccepted
  rw [hfewer] at herror hloaded
  exact ⟨haccepted, herror, hloaded, by decide +kernel, by decide +kernel⟩

end Symbolication.SymbolFile
