import Symbolication.Proofs.SymbolFile.Relocation

/-!
What a look-up writes into a frame, whatever the frame held. What is written depends on the instruction
and its module alone: it is what a frame that nothing is known about gets. The name of the function comes
with its address, the number of the source line with its address, a line never without a function and a
file never without a line.
-/

namespace Symbolication

namespace StackFrame

/-- The frame with what `written` holds about a function and a source line in place of its own. -/
def overwrittenBy (f written : StackFrame) : StackFrame :=
  { f with
    functionName := written.functionName.or f.functionName
    functionBase := written.functionBase.or f.functionBase
    sourceFile := written.sourceFile.or f.sourceFile
    sourceLine := written.sourceLine.or f.sourceLine
    sourceLineBase := written.sourceLineBase.or f.sourceLineBase }

variable (f written : StackFrame)

/-- What is written twice is as if written once. -/
theorem overwrittenBy_overwrittenBy :
    (f.overwrittenBy written).overwrittenBy written = f.overwrittenBy written := by
  simp only [overwrittenBy, ← Option.or_assoc, Option.or_self]

theorem unresolved_overwrittenBy : (f.overwrittenBy written).unresolved = f.unresolved := rfl

/-- A frame that names no function and no line writes nothing. -/
theorem overwrittenBy_eq_self (hname : written.functionName = none) (hbase : written.functionBase = none)
    (hfile : written.sourceFile = none) (hline : written.sourceLine = none)
    (hlineBase : written.sourceLineBase = none) : f.overwrittenBy written = f := by
  unfold overwrittenBy
  rw [hname, hbase, hfile, hline, hlineBase]
  rfl

end StackFrame

namespace SymbolFile

/-- What is held about a function and a source line is whole: names and numbers come with their
addresses, a line comes with a function and a file with a line. -/
structure WrittenTogether (written : StackFrame) : Prop where
  function : written.functionName.isSome = written.functionBase.isSome
  line : written.sourceLine.isSome = written.sourceLineBase.isSome
  function_of_line : written.sourceLine.isSome → written.functionName.isSome
  line_of_file : written.sourceFile.isSome → written.sourceLine.isSome

namespace WrittenTogether

theorem unresolved (frame : StackFrame) : WrittenTogether frame.unresolved :=
  ⟨rfl, rfl, id, id⟩

/-- Without a function there is nothing. -/
theorem overwrittenBy_eq_self {written : StackFrame} (h : WrittenTogether written)
    (hname : written.functionName = none) (frame : StackFrame) :
    frame.overwrittenBy written = frame := by
  have absent {α : Type} {a : Option α} (hnot : a.isSome → False) : a = none :=
    Option.not_isSome_iff_eq_none.mp hnot
  have hnoName : written.functionName.isSome → False := by
    rw [hname]
    exact Bool.false_ne_true
  have hnoLine := fun hline => hnoName (h.function_of_line hline)
  have hnoFile := fun hfile => hnoLine (h.line_of_file hfile)
  apply frame.overwrittenBy_eq_self written hname
  · apply absent
    rw [← h.function]
    exact hnoName
  · exact absent hnoFile
  · exact absent hnoLine
  · apply absent
    rw [← h.line]
    exact hnoLine

end WrittenTogether

namespace Tables

variable (t : Tables)

/-- A source line belongs to the function at its offset. -/
theorem isSome_symbol?_of_line? (offset : UInt64) (h : (t.line? offset).isSome) :
    (t.symbol? offset).isSome := by
  cases hsymbol : t.symbol? offset with
  | none =>
    rw [line?, hsymbol] at h
    exact absurd h Bool.false_ne_true
  | some s => rfl

/-- A name and its address are read from one symbol, a number and its address from one line. -/
theorem writtenTogether_attach (base : Address) (offset : UInt64) (frame : StackFrame) :
    WrittenTogether (t.attach base offset frame) where
  function := by simp only [attach, Option.isSome_map]
  line := by simp only [attach, Option.isSome_map]
  function_of_line := by
    simp only [attach, Option.isSome_map]
    exact t.isSome_symbol?_of_line? offset
  line_of_file := by
    simp only [attach, Option.isSome_map]
    exact Option.isSome_of_isSome_bind

theorem writtenTogether_lookUp_unresolved (frame : StackFrame) :
    WrittenTogether (t.lookUp frame.unresolved) := by
  rcases t.lookUp_unresolved_cases frame with hsame | ⟨c, offset, -, -, hattach⟩
  · rw [hsame]
    exact .unresolved frame
  · rw [hattach]
    exact t.writtenTogether_attach c.base offset frame

/-- A look-up writes what it writes into a frame that nothing is known about, and keeps the rest. -/
theorem lookUp_eq_overwrittenBy (frame : StackFrame) :
    t.lookUp frame = frame.overwrittenBy (t.lookUp frame.unresolved) := by
  have htogether := t.writtenTogether_lookUp_unresolved frame
  rw [t.lookUp_eq_withSourceOf frame]
  by_cases hname : (t.lookUp frame.unresolved).functionName = none
  · rw [if_pos hname]
    exact (htogether.overwrittenBy_eq_self hname frame).symm
  · rw [if_neg hname]
    rcases t.lookUp_unresolved_cases frame with hsame | ⟨c, offset, -, -, hattach⟩
    · exact absurd (congrArg StackFrame.functionName hsame) hname
    · -- The symbol gives a name and an address, so neither of the frame's own stays.
      rw [hattach] at hname ⊢
      obtain ⟨s, hs⟩ : ∃ s, t.symbol? offset = some s := by
        apply Option.ne_none_iff_exists'.mp
        intro hnone
        apply hname
        simp only [attach, hnone, Option.map_none]
      simp only [attach, hs, StackFrame.withSourceOf, StackFrame.overwrittenBy, Option.map_some,
        Option.some_or]

end Tables

/-- Whatever a frame holds, a look-up leaves its instruction, module and trust. It writes the name and the
address of a function or neither, the number and the address of a source line or neither, a line only with
a function and a file only with a line. Without a function the frame is unchanged, and so it is when the
look-up is made again. -/
theorem lookUp_writes_together (m : TextModule) (frame : StackFrame) :
    let written := TextModule.backend.lookUp m frame.unresolved
    let found := TextModule.backend.lookUp m frame
    found = frame.overwrittenBy written ∧
    found.instruction = frame.instruction ∧ found.codeModule = frame.codeModule ∧
    found.trust = frame.trust ∧
    written.functionName.isSome = written.functionBase.isSome ∧
    written.sourceLine.isSome = written.sourceLineBase.isSome ∧
    (written.sourceLine.isSome → written.functionName.isSome) ∧
    (written.sourceFile.isSome → written.sourceLine.isSome) ∧
    (written.functionName = none → found = frame) ∧
    TextModule.backend.lookUp m found = found := by
  intro written found
  have hfound : found = frame.overwrittenBy written := m.tables.lookUp_eq_overwrittenBy frame
  have htogether : WrittenTogether written := m.tables.writtenTogether_lookUp_unresolved frame
  have hagain : TextModule.backend.lookUp m found = found := by
    -- The second look-up writes the same, since the first has kept the instruction and the module.
    have hsame : found.unresolved = frame.unresolved := by
      rw [hfound, StackFrame.unresolved_overwrittenBy]
    calc TextModule.backend.lookUp m found
        = found.overwrittenBy (TextModule.backend.lookUp m found.unresolved) :=
          m.tables.lookUp_eq_overwrittenBy found
      _ = found.overwrittenBy written := by rw [hsame]
      _ = found := by rw [hfound, StackFrame.overwrittenBy_overwrittenBy]
  have hunnamed (hname : written.functionName = none) : found = frame :=
    hfound.trans (htogether.overwrittenBy_eq_self hname frame)
  refine ⟨hfound, ?_, ?_, ?_, htogether.function, htogether.line, htogether.function_of_line,
    htogether.line_of_file, hunnamed, hagain⟩
  all_goals
    rw [hfound]
    rfl

-- The line is written over the old one; its file has no name, so the old file stays.
example :
    let m := (TextModule.backend.parse (TextModule.backend.create "app")
      (.ofText "FUNC 1000 10 0 f\n1000 10 7 1\n")).loaded
    let codeModule : CodeModule := ⟨"app.exe", ⟨0x400000⟩, 0x10000, none, none, none⟩
    let frame : StackFrame :=
      { instruction := ⟨0x401004⟩
        codeModule := some codeModule
        functionBase := some ⟨1⟩
        sourceFile := some "b.c"
        sourceLine := some 2 }
    TextModule.backend.lookUp m frame =
      { frame with
        functionName := some ⟨"f", none, .c⟩
        functionBase := some ⟨0x401000⟩
        sourceLine := some 7
        sourceLineBase := some ⟨0x401000⟩ } := by
  decide +kernel

end SymbolFile

end Symbolication
