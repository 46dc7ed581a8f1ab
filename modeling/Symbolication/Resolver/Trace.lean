import Symbolication.Logging.Record
import Symbolication.SymbolBuffer

/-!
The history of modules and buffers: when a module is made, parses its data and is destroyed, and
when the hooks get a buffer.
-/

namespace Symbolication

inductive Event where
  /-- The hooks get the buffer before it is parsed. -/
  | stored (codeFile : String) (buffer : SymbolBuffer)
  | created (name : String)
  | parsed (name : String) (buffer : SymbolBuffer)
  | dropped (name : String)
  /-- The hooks get the buffer for good. -/
  | released (codeFile : String) (buffer : SymbolBuffer) (registered : Bool)
  /-- The hooks are told of an unload. -/
  | unloaded (codeFile : String)
  | backendDropped
  /-- The hooks are told to release everything. -/
  | cleared
  deriving DecidableEq, Repr

/-- What happened, in order, and what was reported. -/
structure Trace where
  events : List Event := []
  log : List LogRecord := []
  deriving DecidableEq, Repr

namespace Trace

instance : Append Trace := ⟨fun s t => ⟨s.events ++ t.events, s.log ++ t.log⟩⟩

def ofLog (log : List LogRecord) : Trace := { log }

end Trace

end Symbolication
