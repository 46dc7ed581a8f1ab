/-!
Log records: a level, a message, and named values beside it. Nothing is written anywhere; whoever
asks for something gets the records along with it.
-/

namespace Symbolication

/-- How much a log record matters, most important first. -/
inductive LogLevel where
  | error
  | warn
  | info
  | debug
  | trace
  deriving DecidableEq, Repr

namespace LogLevel

def label : LogLevel → String
  | error => "ERROR"
  | warn => "WARN"
  | info => "INFO"
  | debug => "DEBUG"
  | trace => "TRACE"

end LogLevel

structure LogRecord where
  level : LogLevel
  message : String
  fields : List (String × String) := []
  deriving DecidableEq, Repr

/-- A value, and what was reported on the way to it. -/
structure Logged (α : Type) where
  value : α
  log : List LogRecord

end Symbolication
