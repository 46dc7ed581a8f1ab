import Symbolication.Resolver.Error
import Symbolication.Resolver.Hooks
import Symbolication.Resolver.ModuleTable
import Symbolication.Resolver.Trace

/-!
A resolver holds the modules whose symbols are loaded, one for each code file, and passes queries
about frames on to them. Every buffer that a load brings in is given to the hooks exactly twice,
before it is parsed and when the load is over; a load that fails leaves the modules as they were.
Each operation gives the resolver after it and a trace of what happened on the way.
-/

namespace Symbolication

/-- Modules of type `μ`, and hooks with a state of type `σ`. -/
structure Resolver (μ σ : Type) where
  backend : Backend μ
  hooks : Hooks σ
  hookState : σ
  modules : ModuleTable μ := ∅

/-- A resolver after an operation, what the operation answers, and its trace. -/
structure Outcome (μ σ α : Type) where
  resolver : Resolver μ σ
  result : α
  trace : Trace

namespace Resolver

variable {μ σ : Type}

def has (r : Resolver μ σ) (m : CodeModule) : Bool := r.modules.contains m.codeFile

def refuseLoaded (m : CodeModule) : List LogRecord :=
  [⟨.info, "Symbols for module " ++ m.codeFile ++ " already loaded", []⟩]

/-- Makes a module, lets it parse the buffer, and registers it if that succeeds. -/
def ingest (r : Resolver μ σ) (m : CodeModule) (buffer : SymbolBuffer) :
    Outcome μ σ (Except ResolverError Unit) :=
  let key := m.codeFile
  if r.has m then ⟨r, .error (.alreadyLoaded key), .ofLog (refuseLoaded m)⟩
  else
    let parsed := r.backend.parse (r.backend.create key) buffer
    let begun : Trace :=
      ⟨[.created key, .parsed key buffer],
        ⟨.info, "Loading symbols for module " ++ key ++ " from buffer", []⟩ :: parsed.log⟩
    match parsed.error with
    | some e =>
      ⟨r, .error (.parse key e), begun ++ ⟨[.dropped key],
        [⟨.warn, "Symbols for module " ++ key ++ " rejected: " ++ e.message, []⟩]⟩⟩
    | none =>
      -- The key is free, as was found above; should it not be, the new module gives way.
      match r.modules.add? key parsed.loaded with
      | some modules => ⟨{ r with modules }, .ok (), begun⟩
      | none => ⟨r, .error (.alreadyLoaded key), begun ++ ⟨[.dropped key], []⟩⟩

def handOver (r : Resolver μ σ) (m : CodeModule) (buffer : SymbolBuffer) :
    Outcome μ σ (Except ResolverError Unit) :=
  let (stored, content) := r.hooks.store r.hookState m buffer
  let loaded := { r with hookState := stored }.ingest m content
  let released := r.hooks.release loaded.resolver.hookState m content loaded.result.isOk
  { resolver := { loaded.resolver with hookState := released.value }
    result := loaded.result
    trace := ⟨[.stored m.codeFile buffer], []⟩ ++ loaded.trace
      ++ ⟨[.released m.codeFile content loaded.result.isOk], released.log⟩ }

def loadBuffer (r : Resolver μ σ) (m : CodeModule) (bytes : List UInt8) :
    Outcome μ σ (Except ResolverError Unit) :=
  r.handOver m ⟨bytes⟩

/-- Loads the symbols of a module from a file. Nothing is read if the module is loaded already. -/
def loadFile (r : Resolver μ σ) (read : String → Reading) (m : CodeModule) (path : String) :
    Outcome μ σ (Except ResolverError Unit) :=
  if r.has m then ⟨r, .error (.alreadyLoaded m.codeFile), .ofLog (refuseLoaded m)⟩
  else
    let reading := read path
    let begun : List LogRecord :=
      ⟨.info, "Loading symbols for module " ++ m.codeFile ++ " from " ++ path, []⟩ :: reading.log
    match reading.result with
    | .error e => ⟨r, .error (.file e), .ofLog begun⟩
    | .ok buffer =>
      let outcome := r.handOver m buffer
      { outcome with
        trace := .ofLog (begun ++ [⟨.info, "Read symbol file " ++ path ++ " succeeded", []⟩])
          ++ outcome.trace }

/-- Drops the symbols of a module. The hooks are told whether or not there were any. -/
def unload (r : Resolver μ σ) (m : CodeModule) : Outcome μ σ Unit :=
  -- The module is destroyed before the hooks hear of it.
  let dropped : Trace :=
    if r.has m then
      ⟨[.dropped m.codeFile], [⟨.info, "Unloaded symbols for module " ++ m.codeFile, []⟩]⟩
    else {}
  let state := r.hooks.unload r.hookState m
  { resolver := { r with modules := r.modules.erase m.codeFile, hookState := state.value }
    result := ()
    trace := dropped ++ ⟨[.unloaded m.codeFile], state.log⟩ }

def clearHooks (r : Resolver μ σ) : Outcome μ σ Unit :=
  ⟨{ r with hookState := r.hooks.clear r.hookState }, (), ⟨[.cleared], []⟩⟩

/-- What happens when the resolver is no longer needed: its modules go first, then the backend, and
the hooks are cleared last. -/
def finish (r : Resolver μ σ) : List Event :=
  r.modules.keys.map .dropped ++ [.backendDropped, .cleared]

def moduleFor (r : Resolver μ σ) (frame : StackFrame) : Logged (Option μ) :=
  match frame.codeModule with
  | none => ⟨none, []⟩
  | some m =>
    match r.modules.get? m.codeFile with
    | none => ⟨none, [⟨.trace, "no symbols loaded for " ++ m.codeFile, []⟩]⟩
    | some loaded => ⟨some loaded, []⟩

def fill (r : Resolver μ σ) (frame : StackFrame) : Logged StackFrame :=
  match r.moduleFor frame with
  | ⟨none, log⟩ => ⟨frame, log⟩
  | ⟨some m, log⟩ =>
    let filled := r.backend.lookUp m frame
    let name := (filled.functionName.map SymbolName.display).getD "<unknown>"
    ⟨filled, log ++ [⟨.debug, "resolved " ++ filled.instruction.text ++ " to " ++ name, []⟩]⟩

def layout (r : Resolver μ σ) (frame : StackFrame) : Logged (Option FrameLayout) :=
  match r.moduleFor frame with
  | ⟨none, log⟩ => ⟨none, log⟩
  | ⟨some m, log⟩ => ⟨r.backend.layout m frame, log⟩

def rules (r : Resolver μ σ) (frame : StackFrame) : Logged (Option Cfi.RecoveryRules) :=
  match r.moduleFor frame with
  | ⟨none, log⟩ => ⟨none, log⟩
  | ⟨some m, log⟩ =>
    let found := r.backend.rules m frame
    ⟨found.value, log ++ found.log⟩

/-- A resolver is shown by its code files and its hooks. -/
def describe (r : Resolver μ σ) (hooks : String) : String :=
  "SourceLineResolver \x7b modules: " ++ r.modules.describe ++ ", hooks: " ++ hooks ++ ", .. \x7d"

end Resolver

end Symbolication
