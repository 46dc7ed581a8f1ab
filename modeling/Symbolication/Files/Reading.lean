import Symbolication.Files.FileSystem
import Symbolication.Logging.Record
import Symbolication.SymbolBuffer

/-!
Reading a whole symbol file into a buffer: its size is asked for first, then that many bytes are
read. Fewer bytes than that are an error, and bytes beyond it are left alone.
-/

namespace Symbolication

inductive FileStep where
  | stat
  | opening
  | read
  deriving DecidableEq, Repr

namespace FileStep

/-- What messages call the step. -/
def verb : FileStep → String
  | stat => "stat"
  | opening => "open"
  | read => "slurp"

end FileStep

inductive FileError where
  | failed (step : FileStep) (path : String) (code : Option Int) (cause : IoError)
  | shortRead (path : String) (expected actual : Nat)
  deriving DecidableEq, Repr

namespace FileError

/-- A failed step, with the number that the operating system gave, if it gave one. -/
def ofCause (step : FileStep) (path : String) (cause : IoError) : FileError :=
  failed step path cause.code? cause

def path : FileError → String
  | failed _ path _ _ => path
  | shortRead path _ _ => path

def code? : FileError → Option Int
  | failed _ _ code _ => code
  | shortRead .. => none

def cause? : FileError → Option IoError
  | failed _ _ _ cause => some cause
  | shortRead .. => none

def message : FileError → String
  | failed step path code cause =>
    "Could not " ++ step.verb ++ " " ++ path ++ ", error "
      ++ (code.map toString).getD "unknown" ++ ": " ++ cause.text
  | shortRead path expected actual =>
    "Could not slurp " ++ path ++ ": read " ++ toString actual ++ " of " ++ toString expected
      ++ " bytes"

instance : ToString FileError := ⟨message⟩

end FileError

/-- What became of reading a file, and what there was to report on the way. -/
structure Reading where
  result : Except FileError SymbolBuffer
  log : List LogRecord

namespace Reading

def fail (log : List LogRecord) (e : FileError) : Reading :=
  ⟨.error e, log ++ [⟨.error, e.message, []⟩]⟩

end Reading

/-- The first `expected` of the bytes that a file gives, if it gives as many. -/
def readSized (path : String) (expected : Nat) (bytes : List UInt8) :
    Except FileError SymbolBuffer :=
  let got := bytes.take expected
  if got.length = expected then .ok ⟨got⟩ else .error (.shortRead path expected got.length)

namespace FileSystem

/-- Reads the file that `path` leads to. A directory can be opened but not read, a socket not even
opened. -/
def read (fs : FileSystem) (path : String) : Reading :=
  let opening : LogRecord := ⟨.info, "Opening " ++ path, []⟩
  match fs.stat path with
  | .error cause => .fail [] (.ofCause .stat path cause)
  | .ok .socket => .fail [opening] (.ofCause .opening path .noSuchDevice)
  | .ok .directory => .fail [opening] (.ofCause .read path .isDirectory)
  | .ok (.link _) => .fail [] (.ofCause .stat path .tooManyLinks)
  | .ok (.file bytes) =>
    match readSized path bytes.length bytes with
    | .ok buffer => ⟨.ok buffer, [opening]⟩
    | .error e => .fail [opening] e

end FileSystem

end Symbolication
