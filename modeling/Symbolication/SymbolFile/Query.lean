import Symbolication.Cfi.RecoveryRules
import Symbolication.StackFrame
import Symbolication.SymbolFile.Tables

/-!
What tables say about the instruction of a frame: its function and source line, the layout of its
frame, and the rules that recover the caller's registers.
-/

namespace Symbolication.SymbolFile

inductive Symbol where
  | function (base : UInt64) (function : Function)
  | publicSymbol (address : UInt64) (symbol : PublicSymbol)
  deriving DecidableEq

namespace Symbol

def name : Symbol → String
  | function _ f => f.name
  | publicSymbol _ s => s.name

def base : Symbol → UInt64
  | function b _ => b
  | publicSymbol a _ => a

def parameterSize : Symbol → UInt32
  | function _ f => f.parameterSize
  | publicSymbol _ s => s.parameterSize

end Symbol

namespace Tables

/-- The public symbol at the greatest address at or below `offset`, unless the function `nearest`
starts at or above it. -/
def publicSymbol? (t : Tables) (nearest : Option (Range Function)) (offset : UInt64) :
    Option Symbol :=
  match t.publicSymbols.atOrBelow? offset with
  | none => none
  | some (address, symbol) =>
    if nearest.any fun f => address ≤ f.base then none else some (.publicSymbol address symbol)

/-- The function whose range covers `offset`, or the public symbol that reaches up to it. -/
def symbol? (t : Tables) (offset : UInt64) : Option Symbol :=
  -- Where the nearest function ends before `offset`, it still bounds the public symbols.
  let nearest := t.functions.nearest? offset
  match nearest.filter (·.covers offset) with
  | some f => some (.function f.base f.value)
  | none => t.publicSymbol? nearest offset

/-- Writes the source line of `function` at `offset` into a frame, if there is one. The file stays
as it was when its number has no name. -/
def fillLine (t : Tables) (function : Function) (base : Address) (offset : UInt64)
    (frame : StackFrame) : StackFrame :=
  match function.lines.find? offset with
  | none => frame
  | some r =>
    { frame with
      sourceFile := (t.fileName? r.value.file).or frame.sourceFile
      sourceLine := some r.value.line
      sourceLineBase := some (base.add r.base) }

def lookUp (t : Tables) (frame : StackFrame) : StackFrame :=
  match frame.codeModule, frame.moduleOffset? with
  | some m, some offset =>
    match t.symbol? offset with
    | none => frame
    | some symbol =>
      let named := { frame with
        functionName := some (.ofRaw symbol.name)
        functionBase := some (m.base.add symbol.base) }
      match symbol with
      | .function _ f => t.fillLine f m.base offset named
      | .publicSymbol .. => named
  | _, _ => frame

/-- The layout recorded for `offset`; without one, the size of its symbol's parameters. -/
def layoutAt? (t : Tables) (offset : UInt64) : Option FrameLayout :=
  match (t.frameDataLayouts.find? offset).or (t.fpoLayouts.find? offset) with
  | some r => some r.value
  | none => (t.symbol? offset).map fun s => .ofParameterSize s.parameterSize

def layout? (t : Tables) (frame : StackFrame) : Option FrameLayout :=
  frame.moduleOffset?.bind t.layoutAt?

/-- The rule sets in effect at `offset`: the initial one whose range covers it, and the changes from
the start of that range up to `offset`. -/
def ruleSetsAt? (t : Tables) (offset : UInt64) : Option (String × List String) :=
  (t.cfiInitial.find? offset).map fun r =>
    (r.value, (t.cfiDeltas.between r.base offset).map Prod.snd)

/-- The rules in effect at `offset`. An initial rule set that is refused leaves none; a change that
is refused part way counts up to there. -/
def rulesAt? (t : Tables) (offset : UInt64) : Option Cfi.RecoveryRules :=
  match t.ruleSetsAt? offset with
  | none => none
  | some (initial, deltas) =>
    if (Cfi.deliver initial).error.isSome then none
    else some (deltas.foldl .applyRuleSet ((∅ : Cfi.RecoveryRules).applyRuleSet initial))

def rules? (t : Tables) (frame : StackFrame) : Option Cfi.RecoveryRules :=
  frame.moduleOffset?.bind t.rulesAt?

/-- A rule set that was refused, and why. -/
structure RefusedRuleSet where
  ruleSet : String
  error : Cfi.RuleError
  deriving DecidableEq, Repr

def refused? (ruleSet : String) : Option RefusedRuleSet :=
  (Cfi.deliver ruleSet).error.map (⟨ruleSet, ·⟩)

/-- The rule sets that finding the rules of a frame comes upon and refuses, in order. -/
def refusedRuleSets (t : Tables) (frame : StackFrame) : List RefusedRuleSet :=
  match frame.moduleOffset?.bind t.ruleSetsAt? with
  | none => []
  | some (initial, deltas) =>
    match refused? initial with
    | some r => [r]
    | none => deltas.filterMap refused?

end Tables

end Symbolication.SymbolFile
