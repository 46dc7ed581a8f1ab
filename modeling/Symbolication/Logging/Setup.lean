import Symbolication.Files.FileSystem
import Symbolication.Logging.Record

/-!
Choosing where log records go and in which form. A process has at most one subscriber to its log
records, and it stays for good, so every set-up after the first fails.
-/

namespace Symbolication.Logging

inductive LogFormat where
  | pretty
  | json
  deriving DecidableEq, Repr

inductive SetupError where
  | invalidFormat (text : String)
  | invalidLevel (text : String)
  /-- The subscriber could not be installed. -/
  | initializationFailed (reason : String)
  | file (error : IoError)
  deriving DecidableEq, Repr

namespace SetupError

def message : SetupError → String
  | invalidFormat text => "Unknown log format: " ++ text ++ ". Use 'pretty' or 'json'"
  | invalidLevel text =>
    "Unknown log level: " ++ text ++ ". Use 'error', 'warn', 'info', 'debug', or 'trace'"
  | initializationFailed reason => "Failed to initialize logging: " ++ reason
  | file e => "File logging error: " ++ e.text

instance : ToString SetupError := ⟨message⟩

end SetupError

/-- A text in lower case, as far as the keywords below can tell: they are made of ASCII letters, and
the lower-case form of no other character consists of letters that occur in them. -/
def fold (text : String) : String := text.map Char.toLower

namespace LogFormat

def default : LogFormat := pretty

def keywords : List (String × LogFormat) := [
  ("pretty", pretty), ("dev", pretty), ("development", pretty),
  ("json", json), ("prod", json), ("production", json)]

def parse (text : String) : Except SetupError LogFormat :=
  match keywords.lookup (fold text) with
  | some format => .ok format
  | none => .error (.invalidFormat text)

end LogFormat

def levelKeywords : List (String × LogLevel) := [
  ("error", .error), ("err", .error), ("warn", .warn), ("warning", .warn), ("info", .info),
  ("debug", .debug), ("dbg", .debug), ("trace", .trace)]

def parseLevel (text : String) : Except SetupError LogLevel :=
  match levelKeywords.lookup (fold text) with
  | some level => .ok level
  | none => .error (.invalidLevel text)

/-- The process that logging is set up in. -/
structure Host where
  /-- The format asked for from outside. -/
  format : Option String := none
  files : FileSystem
  /-- Whether log records have a subscriber. -/
  subscribed : Bool
  deriving DecidableEq

namespace Host

/-- Installs the one subscriber that a process may have. -/
def subscribe (p : Host) : Except SetupError Host :=
  if p.subscribed then
    .error (.initializationFailed "a global default trace dispatcher has already been set")
  else .ok { p with subscribed := true }

def logAsAsked (p : Host) : Except SetupError Host := do
  match p.format with
  | some text => let _ ← LogFormat.parse text
  | none => pure ()
  p.subscribe

/-- Sets up logging to a file in `directory`, which is made if it is missing. -/
def logToDirectory (p : Host) (directory : String) : Except SetupError Host :=
  match p.files.createDirectories directory with
  | .error e => .error (.file e)
  | .ok files => { p with files }.subscribe

/-- Sets up logging for tests, which is no error when it is set up already. -/
def logForTests (p : Host) : Host := (p.subscribe.toOption).getD p

end Host

end Symbolication.Logging
