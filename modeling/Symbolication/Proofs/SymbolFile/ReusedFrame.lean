import Symbolication.Resolver.Backend

/-!
Looking up a frame that was looked up before, at another instruction or with other symbols. The
function is always that of the last look-up, but a source field that the look-up has nothing for keeps
what it held.
-/

namespace Symbolication

namespace StackFrame

/-- The frame with nothing known about its function and source line. -/
def unresolved (f : StackFrame) : StackFrame :=
  { f with
    functionName := none
    functionBase := none
    sourceFile := none
    sourceLine := none
    sourceLineBase := none }

/-- The frame with the source fields of `old` where it has none of its own. -/
def withSourceOf (f old : StackFrame) : StackFrame :=
  { f with
    sourceFile := f.sourceFile.or old.sourceFile
    sourceLine := f.sourceLine.or old.sourceLine
    sourceLineBase := f.sourceLineBase.or old.sourceLineBase }

/-- The frame with a function, whatever is known about one. -/
def named (f : StackFrame) (name : SymbolName) (base : Address) : StackFrame :=
  { f with
    functionName := some name
    functionBase := some base }

theorem named_eq_withSourceOf (f : StackFrame) (name : SymbolName) (base : Address) :
    f.named name base = (f.unresolved.named name base).withSourceOf f := rfl

theorem or_eq_self_iff {α : Type} (a b : Option α) : a.or b = a ↔ (a = none → b = none) := by
  cases a <;> simp

/-- Nothing is taken over if there is nothing where the frame has nothing of its own. -/
theorem withSourceOf_eq_self_iff (f old : StackFrame) :
    f.withSourceOf old = f ↔
      (f.sourceFile = none → old.sourceFile = none) ∧
      (f.sourceLine = none → old.sourceLine = none) ∧
      (f.sourceLineBase = none → old.sourceLineBase = none) := by
  obtain ⟨instruction, codeModule, name, base, file, line, lineBase, trust⟩ := f
  simp only [withSourceOf, StackFrame.mk.injEq, or_eq_self_iff, true_and, and_true]

end StackFrame

namespace SymbolFile

namespace Tables

variable (t : Tables)

theorem fillLine_withSourceOf (function : Function) (base : Address) (offset : UInt64)
    (f old : StackFrame) :
    t.fillLine function base offset (f.withSourceOf old) =
      (t.fillLine function base offset f).withSourceOf old := by
  unfold fillLine
  split
  · rfl
  · simp only [StackFrame.withSourceOf, Option.or_assoc, Option.some_or]

theorem fillLine_functionName (function : Function) (base : Address) (offset : UInt64)
    (f : StackFrame) : (t.fillLine function base offset f).functionName = f.functionName := by
  unfold fillLine
  split <;> rfl

/-- Without a symbol the frame stays as it is; with one it is what the look-up of a fresh frame gives,
over the old source fields. -/
theorem lookUp_eq_withSourceOf (frame : StackFrame) :
    t.lookUp frame =
      if (t.lookUp frame.unresolved).functionName = none then frame
      else (t.lookUp frame.unresolved).withSourceOf frame := by
  have hmodule : frame.unresolved.codeModule = frame.codeModule := rfl
  have hoffset : frame.unresolved.moduleOffset? = frame.moduleOffset? := rfl
  unfold lookUp
  rw [hmodule, hoffset]
  split
  · rename_i m offset _ _
    cases t.symbol? offset with
    | none => rfl
    | some symbol =>
      cases symbol with
      | function base function =>
        -- The frame is named first; the line then adds to what the frame holds.
        have hname : (t.fillLine function m.base offset
            (frame.unresolved.named (.ofRaw function.name) (m.base.add base))).functionName ≠
              none := by
          rw [fillLine_functionName]
          exact Option.some_ne_none _
        have hline := t.fillLine_withSourceOf function m.base offset
          (frame.unresolved.named (.ofRaw function.name) (m.base.add base)) frame
        rw [← StackFrame.named_eq_withSourceOf] at hline
        exact hline.trans (if_neg hname).symm
      | publicSymbol address symbol => rfl
  · rfl

end Tables

/-- A look-up that attaches a symbol leaves the function that a fresh frame would get, and the source
fields of a fresh frame where it has any. It leaves all that a fresh frame would get exactly if the
frame held nothing in the source fields for which the look-up has nothing. -/
theorem lookUp_reused_frame (m : TextModule) (frame : StackFrame) :
    let fresh := TextModule.backend.lookUp m frame.unresolved
    let found := TextModule.backend.lookUp m frame
    (fresh.functionName = none → found = frame) ∧
    (fresh.functionName ≠ none →
      found = fresh.withSourceOf frame ∧
      (found = fresh ↔
        (fresh.sourceFile = none → frame.sourceFile = none) ∧
        (fresh.sourceLine = none → frame.sourceLine = none) ∧
        (fresh.sourceLineBase = none → frame.sourceLineBase = none))) := by
  intro fresh found
  have hfound : found = if fresh.functionName = none then frame else fresh.withSourceOf frame :=
    m.tables.lookUp_eq_withSourceOf frame
  constructor
  · intro hnone
    rw [hfound, if_pos hnone]
  · intro hsome
    rw [hfound, if_neg hsome]
    exact ⟨rfl, fresh.withSourceOf_eq_self_iff frame⟩

/-- A public symbol beside the source line of a function, which the frame was in before. -/
theorem lookUp_keeps_old_source_line :
    let m := (TextModule.backend.parse (TextModule.backend.create "app")
      (.ofText "FILE 1 a.c\nFUNC 1000 10 0 f\n1000 10 7 1\nPUBLIC 2000 0 g\n")).loaded
    let codeModule : CodeModule := ⟨"app.exe", ⟨0x400000⟩, 0x10000, none, none, none⟩
    let before := TextModule.backend.lookUp m
      { instruction := ⟨0x401004⟩, codeModule := some codeModule }
    let moved : StackFrame := { before with instruction := ⟨0x402004⟩ }
    TextModule.backend.lookUp m moved.unresolved =
      { instruction := ⟨0x402004⟩
        codeModule := some codeModule
        functionName := some ⟨"g", none, .c⟩
        functionBase := some ⟨0x402000⟩ } ∧
    TextModule.backend.lookUp m moved =
      { instruction := ⟨0x402004⟩
        codeModule := some codeModule
        functionName := some ⟨"g", none, .c⟩
        functionBase := some ⟨0x402000⟩
        sourceFile := some "a.c"
        sourceLine := some 7
        sourceLineBase := some ⟨0x401000⟩ } := by
  decide +kernel

end SymbolFile

end Symbolication
