import Symbolication.Proofs.SymbolFile.Refusal

/-!
Symbol files that are loaded one after the other. Two texts leave in a module what they leave there as
one text, with a newline between them. The function that is open where the first text ends is stored
there in one case and at some record of the second text in the other, but the second text has no line
for it.
-/

namespace Symbolication

/-- The content of both, with a newline between them. -/
def SymbolBuffer.joined (first second : SymbolBuffer) : SymbolBuffer :=
  ⟨first.content ++ Utf8.newline :: second.content⟩

namespace SymbolFile

theorem parse_error_eq_none_iff (m : TextModule) (data : SymbolBuffer) :
    (TextModule.backend.parse m data).error = none ↔
      (∀ line ∈ data.lines, line ≠ [] → (recordOfLine? line).isSome) ∧
        placed false false (data.lines.filterMap recordOfLine?) = true :=
  Option.map_eq_none_iff.trans (loadText_error_eq_none_iff m.tables (Utf8.decodeLossy data.text))

theorem loaded_of_accepted (m : TextModule) (data : SymbolBuffer)
    (h : (TextModule.backend.parse m data).error = none) :
    (TextModule.backend.parse m data).loaded =
      { m with tables := m.tables.absorb (data.lines.filterMap recordOfLine?) } := by
  have htables := tables_of_accepted m.tables _ (Option.map_eq_none_iff.mp h)
  exact congrArg (fun tables => { m with tables }) htables

theorem no_header_of_lines (ls : List (List Char))
    (h : ∀ line ∈ ls, firstWord line ≠ "MODULE".toList) :
    ∀ r ∈ ls.filterMap recordOfLine?, r.kind ≠ .header := by
  intro r hr hkind
  obtain ⟨line, hline, hread⟩ := List.mem_filterMap.mp hr
  have hkindOf := kindOfLine?_of_recordOfLine? line r hread
  rw [hkind, kindOfLine?_eq_some_iff line .header (by decide)] at hkindOf
  exact h line hline (List.mem_singleton.mp hkindOf)

/-- Loading two texts one after the other is loading them as one, in any module. -/
theorem parse_joined_eq_parse_parse (m : TextModule) (first second : SymbolBuffer)
    (hnul : 0 ∉ first.content)
    (hfirst : (TextModule.backend.parse m first).error = none)
    (hsecond : (TextModule.backend.parse m second).error = none)
    (hheader : ∀ line ∈ second.lines, firstWord line ≠ "MODULE".toList) :
    let parse := TextModule.backend.parse
    (parse m (first.joined second)).error = none ∧
      (parse (parse m first).loaded second).error = none ∧
      (parse m (first.joined second)).loaded = (parse (parse m first).loaded second).loaded := by
  intro parse
  have hlines : (first.joined second).lines = first.lines ++ second.lines :=
    SymbolBuffer.lines_append_newline first.content second.content hnul
  obtain ⟨hallFirst, hplacedFirst⟩ := (parse_error_eq_none_iff m first).mp hfirst
  obtain ⟨hallSecond, hplacedSecond⟩ := (parse_error_eq_none_iff m second).mp hsecond
  have hjoined : (parse m (first.joined second)).error = none := by
    rw [parse_error_eq_none_iff, hlines, List.filterMap_append]
    constructor
    · intro line hline
      rcases List.mem_append.mp hline with hmem | hmem
      · exact hallFirst line hmem
      · exact hallSecond line hmem
    · exact placed_append _ _ (no_header_of_lines _ hheader) hplacedFirst hplacedSecond
  have hafter : (parse (parse m first).loaded second).error = none :=
    (parse_error_eq_none_iff _ second).mpr ⟨hallSecond, hplacedSecond⟩
  refine ⟨hjoined, hafter, ?_⟩
  -- No line record of the second text may come before its first `FUNC` record.
  have hleading := leadingLines_of_placed _ _ hplacedSecond
  rw [loaded_of_accepted m _ hjoined, loaded_of_accepted _ second hafter,
    loaded_of_accepted m first hfirst, hlines, List.filterMap_append,
    m.tables.absorb_append _ _ hleading]

/-- A file that ends while a function is open. -/
def openFunctionFile : SymbolBuffer where
  content := ["MODULE os cpu id m", "FUNC 10 8 0 f", "12 4 7 1"].flatMap fun line =>
    (SymbolBuffer.ofText (line ++ "\n")).content

/-- A file with a function that reaches into that one. -/
def overlappingFunctionFile : SymbolBuffer where
  content := ["FILE 1 a", "FUNC 14 8 0 g", "PUBLIC 40 0 p"].flatMap fun line =>
    (SymbolBuffer.ofText (line ++ "\n")).content

theorem parse_joined_openFunctionFile :
    let parse := TextModule.backend.parse
    let m := TextModule.backend.create "m"
    let joined := (parse m (openFunctionFile.joined overlappingFunctionFile)).loaded
    (parse m openFunctionFile).error = none ∧ (parse m overlappingFunctionFile).error = none ∧
    (parse m (openFunctionFile.joined overlappingFunctionFile)).error = none ∧
    joined = (parse (parse m openFunctionFile).loaded overlappingFunctionFile).loaded ∧
    joined.tables.functions.entries.keys = [0x10] ∧ joined.tables.files.keys = [1] := by
  intro parse m joined
  have hnul : 0 ∉ openFunctionFile.content := by decide +kernel
  have hfirst : (parse m openFunctionFile).error = none := by decide +kernel
  have hsecond : (parse m overlappingFunctionFile).error = none := by decide +kernel
  have hheader : ∀ line ∈ overlappingFunctionFile.lines, firstWord line ≠ "MODULE".toList := by
    decide +kernel
  obtain ⟨haccepted, -, hloaded⟩ :=
    parse_joined_eq_parse_parse m openFunctionFile overlappingFunctionFile hnul hfirst hsecond hheader
  exact ⟨hfirst, hsecond, haccepted, hloaded, by decide +kernel, by decide +kernel⟩

end SymbolFile

end Symbolication
