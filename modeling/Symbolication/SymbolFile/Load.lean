import Symbolication.SymbolBuffer
import Symbolication.SymbolFile.Tables
import Symbolication.Text.Utf8

/-!
Loading a symbol file into tables, line by line. Line records belong to the function whose record
came before them; that function is open until the next `FUNC`, `PUBLIC` or `STACK` record or the end
of the file, and only then stored. Loading stops at the first line that is not accepted; what was
stored up to there stays, and a function still open is lost.
-/

namespace Symbolication.SymbolFile

open Text

inductive LineError where
  | malformed (kind : RecordKind)
  /-- A `MODULE` record may only be the first record. -/
  | lateHeader
  /-- A line record needs an open function. -/
  | strayLine
  | unknownKind
  deriving DecidableEq, Repr

namespace LineError

def message : LineError → String
  | malformed kind => "malformed " ++ kind.name
  | lateHeader => "MODULE record found after the start of the file"
  | strayLine => "line record outside of a FUNC"
  | unknownKind => "unknown record type"

end LineError

/-- A line that was not accepted, by its number from 1. -/
structure LoadError where
  line : Nat
  reason : LineError
  deriving DecidableEq, Repr

namespace LoadError

def message (e : LoadError) : String := "line " ++ toString e.line ++ ": " ++ e.reason.message

instance : ToString LoadError := ⟨message⟩

end LoadError

/-- What loading has to say that does not stop it. -/
inductive LoadNotice where
  | notUtf8
  | droppedLine (line : Nat)
  | droppedFunction (name : String) (base : UInt64)
  | droppedCfiInit (base : UInt64)
  | mismatchedLayout (base : UInt64) (type : UInt32) (hasProgram : Bool)
  | droppedLayout (base : UInt64)
  | loaded (functions publicSymbols : Nat)
  deriving DecidableEq, Repr

/-- The function that line records belong to. -/
structure OpenFunction where
  base : UInt64
  size : UInt64
  function : Function
  deriving DecidableEq

structure Loading where
  tables : Tables
  openFunction : Option OpenFunction := none
  /-- Whether a record was accepted. -/
  started : Bool := false
  /-- What there was to say, last first. -/
  notices : List LoadNotice := []
  deriving DecidableEq

namespace Loading

def say (s : Loading) (n : LoadNotice) : Loading := { s with notices := n :: s.notices }

/-- Stores the open function, if its range can be stored. -/
def close (s : Loading) : Loading :=
  match s.openFunction with
  | none => s
  | some f =>
    let s := { s with openFunction := none }
    match s.tables.functions.store? ⟨f.base, f.size, f.function⟩ with
    | some functions => { s with tables := { s.tables with functions } }
    | none => s.say (.droppedFunction f.function.name f.base)

/-- Whether a line that announces this kind ends the open function, be it malformed or not. -/
def closes : RecordKind → Bool
  | .function | .publicSymbol | .stack => true
  | _ => false

/-- The state in which a line of the kind is read. -/
def enter (s : Loading) (kind : Option RecordKind) : Loading :=
  if kind.any closes then s.close else s

/-- What rules out a line of this kind whatever its fields are. -/
def misplaced? (s : Loading) : RecordKind → Option LineError
  | .header => if s.started then some .lateHeader else none
  | .line => if s.openFunction.isNone then some .strayLine else none
  | _ => none

/-- Adds a line of source to the open function. A line without addresses says nothing. -/
def addLine (s : Loading) (number : Nat) (r : Range SourceLine) : Loading :=
  match s.openFunction with
  | none => s
  | some f =>
    -- A line without addresses is not worth a notice either.
    if r.size = 0 then s
    else match f.function.lines.store? r with
      | some lines =>
        { s with openFunction := some { f with function := { f.function with lines } } }
      | none => s.say (.droppedLine number)

/-- Adds a layout to the table of its kind. Only two kinds have one. -/
def addLayout (s : Loading) (r : Range FrameLayout) : Loading :=
  match r.value.kind with
  | .frameData =>
    match s.tables.frameDataLayouts.store? r with
    | some frameDataLayouts => { s with tables := { s.tables with frameDataLayouts } }
    | none => s.say (.droppedLayout r.base)
  | .fpo =>
    match s.tables.fpoLayouts.store? r with
    | some fpoLayouts => { s with tables := { s.tables with fpoLayouts } }
    | none => s.say (.droppedLayout r.base)
  | _ => s

def record (s : Loading) (number : Nat) : Record → Loading
  | .ignored => s
  | .header header => { s with tables := { s.tables with header := some header } }
  | .file file name =>
    { s with tables := { s.tables with files := s.tables.files.insert file name } }
  | .function head =>
    { s with openFunction := some ⟨head.base, head.size, ⟨head.name, head.parameterSize, ∅⟩⟩ }
  | .publicSymbol address symbol => { s with tables := s.tables.addPublicSymbol address symbol }
  | .line base size source => s.addLine number ⟨base, size, source⟩
  | .layout base size layout => s.addLayout ⟨base, size, layout⟩
  | .mismatchedLayout base type hasProgram => s.say (.mismatchedLayout base type hasProgram)
  | .cfiInit base size rules =>
    match s.tables.cfiInitial.store? ⟨base, size, rules⟩ with
    | some cfiInitial => { s with tables := { s.tables with cfiInitial } }
    | none => s.say (.droppedCfiInit base)
  | .cfiDelta address rules =>
    { s with tables := { s.tables with cfiDeltas := s.tables.cfiDeltas.insert address rules } }

/-- Reads one line that is not blank, in the state its kind puts the load in. -/
def accept (s : Loading) (kind : Option RecordKind) (number : Nat) (line : List Char) :
    Except LineError Loading :=
  match kind with
  | none => .error .unknownKind
  | some kind =>
    match s.misplaced? kind with
    | some reason => .error reason
    | none =>
      match Record.read? kind line with
      | none => .error (.malformed kind)
      | some r => .ok { s.record number r with started := true }

def run (s : Loading) (number : Nat) : List (List Char) → Loading × Option LoadError
  | [] => (s.close, none)
  | line :: rest =>
    if line.isEmpty then s.run (number + 1) rest
    else
      let kind := kindOfLine? line
      let s := s.enter kind
      -- A refused line has closed the open function all the same if its kind does.
      match s.accept kind number line with
      | .ok next => next.run (number + 1) rest
      | .error reason => (s, some ⟨number, reason⟩)

end Loading

structure LoadResult where
  tables : Tables
  error : Option LoadError
  notices : List LoadNotice
  deriving DecidableEq

namespace Tables

/-- Loads a text into tables that may already hold something. -/
def loadText (t : Tables) (text : List Char) : LoadResult :=
  let (s, error) := Loading.run ⟨t, none, false, []⟩ 1 (lines text)
  ⟨s.tables, error, s.notices.reverse⟩

/-- Loads symbol data, which is text up to the first nul byte. -/
def load (t : Tables) (data : SymbolBuffer) : LoadResult :=
  let result := t.loadText (Utf8.decodeLossy data.text)
  let warning := if Utf8.isWellFormed data.text then [] else [.notUtf8]
  let summary := match result.error with
    | none => [.loaded result.tables.functions.size result.tables.publicSymbols.size]
    | some _ => []
  { result with notices := warning ++ result.notices ++ summary }

end Tables

end Symbolication.SymbolFile
