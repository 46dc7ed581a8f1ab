import Symbolication.Proofs.RangeMap.Repeated
import Symbolication.Proofs.SymbolFile.Outcome
import Symbolication.Proofs.SymbolFile.Reordering
import Symbolication.Proofs.SymbolFile.RuleChanges

/-!
Symbol data that is loaded again. Every table has a rule for records that claim the same place: the
first one stays or the last one does. Either way a second pass over the same records finds them settled,
the ones that were dropped as well as the ones that were stored, so it answers and leaves what the first
one did.
-/

namespace Symbolication.SymbolFile

namespace Tables

/-- Records that are put into the tables again change nothing. -/
theorem foldl_put_twice (t : Tables) (rs : List Record) :
    rs.foldl put (rs.foldl put t) = rs.foldl put t := by
  have htable {β γ : Type} (table : Tables → β) (pick? : Record → Option γ) (store : β → γ → β)
      (hput : ∀ t r, table (t.put r) = (pick? r).elim (table t) (store (table t)))
      (htwice : ∀ (b : β) (cs : List γ), cs.foldl store (cs.foldl store b) = cs.foldl store b) :
      table (rs.foldl put (rs.foldl put t)) = table (rs.foldl put t) := by
    rw [foldl_put_table table pick? store hput, foldl_put_table table pick? store hput, htwice]
  ext1
  · apply htable header Record.header? (fun _ => some) put_header
    intro b cs
    -- Of several headers the last one is kept, and it is the last one of the second pass too.
    have hlast (b : Option Header) : cs.foldl (fun _ => some) b = (cs.filterMap some).getLast?.or b :=
      foldl_or_last some cs b
    rw [hlast, hlast, ← Option.or_assoc, Option.or_self]
  · exact htable files Record.fileEntry? (fun m e => m.insert e.1 e.2) put_fileEntry
      OrderedMap.foldl_insert_twice
  · rw [foldl_put_functions]
  · exact htable publicSymbols Record.publicEntry? (fun m e => m.insertNew e.1 e.2) put_publicEntry
      OrderedMap.foldl_insertNew_twice
  · exact htable frameDataLayouts _ _ put_frameDataLayouts RangeMap.offerAll_offerAll
  · exact htable fpoLayouts _ _ put_fpoLayouts RangeMap.offerAll_offerAll
  · exact htable cfiInitial _ _ put_cfiInitial RangeMap.offerAll_offerAll
  · exact htable cfiDeltas Record.ruleChange? (fun m e => m.insert e.1 e.2) put_cfiDeltas
      OrderedMap.foldl_insert_twice

theorem fill_fill (t : Tables) (rs : List Record) (fs : List (Range Function)) :
    (t.fill rs fs).fill rs fs = t.fill rs fs := by
  have hfunctions : (t.fill rs fs).functions = t.functions.offerAll fs := rfl
  rw [fill, hfunctions, RangeMap.offerAll_offerAll]
  rw [fill, foldl_put_withFunctions, foldl_put_twice, withFunctions_withFunctions]

end Tables

/-- Loading the same data again right away answers what the first load answered, be it accepted or
refused, and leaves the module as the first load left it. -/
theorem parse_again (m : TextModule) (data : SymbolBuffer) :
    let first := TextModule.backend.parse m data
    let second := TextModule.backend.parse first.loaded data
    second.error = first.error ∧ second.loaded = first.loaded := by
  intro first second
  obtain ⟨rs, fs, error, hloads⟩ := exists_loadsAs data.lines
  have hanswer (n : TextModule) : (loadOf n data.lines).2 = error := hloads.answers n.tables
  have hfirst : first.loaded.tables = m.tables.fill rs fs := hloads.leaves m.tables
  have hsecond : second.loaded.tables = first.loaded.tables.fill rs fs :=
    hloads.leaves first.loaded.tables
  constructor
  · rw [parse_error, parse_error, hanswer, hanswer]
  · have htables : second.loaded.tables = first.loaded.tables := by
      rw [hsecond, hfirst, Tables.fill_fill]
    exact congrArg (fun tables => { m with tables }) htables

end Symbolication.SymbolFile
