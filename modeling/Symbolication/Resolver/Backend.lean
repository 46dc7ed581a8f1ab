import Symbolication.SymbolFile.Report

/-!
What a resolver asks of a kind of symbol data: to make a module, to let it read its data, and to
answer queries about frames. The backend for symbol files is the one of this library.
-/

namespace Symbolication

/-- Malformed symbol data, by the number of the first line that is wrong. -/
structure ParseError where
  line : Nat
  reason : String
  deriving DecidableEq, Repr

namespace ParseError

def message (e : ParseError) : String := "line " ++ toString e.line ++ ": " ++ e.reason

instance : ToString ParseError := ⟨message⟩

end ParseError

structure Parsed (μ : Type) where
  loaded : μ
  error : Option ParseError
  log : List LogRecord

/-- Modules of the type `μ`, and what they can do. -/
structure Backend (μ : Type) where
  /-- An empty module with the given name. -/
  create : String → μ
  parse : μ → SymbolBuffer → Parsed μ
  /-- Fills in the function and source line at the frame's instruction. -/
  lookUp : μ → StackFrame → StackFrame
  layout : μ → StackFrame → Option FrameLayout
  rules : μ → StackFrame → Logged (Option Cfi.RecoveryRules)

structure TextModule where
  name : String
  tables : SymbolFile.Tables := ∅
  deriving DecidableEq

namespace TextModule

def parse (m : TextModule) (data : SymbolBuffer) : Parsed TextModule :=
  let result := m.tables.load data
  { loaded := { m with tables := result.tables }
    error := result.error.map fun e => ⟨e.line, e.reason.message⟩
    log := result.notices.map (·.log m.name) }

def rules (m : TextModule) (frame : StackFrame) : Logged (Option Cfi.RecoveryRules) :=
  ⟨m.tables.rules? frame, (m.tables.refusedRuleSets frame).map (·.log m.name)⟩

def backend : Backend TextModule where
  create name := { name }
  parse := parse
  lookUp m := m.tables.lookUp
  layout m := m.tables.layout?
  rules := rules

end TextModule

end Symbolication
