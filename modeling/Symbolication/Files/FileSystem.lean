import Symbolication.Files.IoError
import Symbolication.Text.Field

/-!
A file system as a value: what stands at each place, and how a path leads to a place. Links are
followed wherever they stand in a path, up to a fixed number; a component that is longer than any
file name may be, or that follows something other than a directory, ends the way.
-/

namespace Symbolication

/-- The names that lead from the root to a place, none of them a link, `.` or `..`. -/
abbrev Place := List String

inductive Node where
  | file (bytes : List UInt8)
  | directory
  | link (target : String)
  | socket
  deriving DecidableEq, Repr

/-- The places in use besides the root, and the directory that relative paths start from. -/
structure FileSystem where
  nodes : List (Place × Node)
  current : Place
  deriving DecidableEq, Repr

namespace FileSystem

def maxPathBytes : Nat := 4095
def maxNameBytes : Nat := 255
def maxLinks : Nat := 40

def node? (fs : FileSystem) (p : Place) : Option Node :=
  if p.isEmpty then some .directory else fs.nodes.lookup p

def ancestors (p : Place) : List Place :=
  (List.range p.length).map fun n => p.take (n + 1)

/-- A file system that holds the directory `current` and those above it. -/
def startingAt (current : Place) : FileSystem where
  nodes := (ancestors current).map (·, .directory)
  current

def isAbsolute (path : String) : Bool := path.startsWith "/"

def names (path : String) : List String :=
  ((Text.pieces '/' path.toList).filter (!·.isEmpty)).map String.ofList

/-- The components of a path. A slash at the end asks for a directory, as a last `.` does. -/
def components (path : String) : List String :=
  if path.endsWith "/" then names path ++ ["."] else names path

/-- Where the components of `path` are looked up from, for a path met in the directory `dir`. -/
def origin (dir : Place) (path : String) : Place := if isAbsolute path then [] else dir

/-- Where `names` lead from `dir`, following at most `links` links. -/
def walk (fs : FileSystem) (links : Nat) (dir : Place) (names : List String) :
    Except IoError Place :=
  match names with
  | [] => .ok dir
  | name :: rest =>
    if fs.node? dir ≠ some .directory then .error .notDirectory
    else if name = "." then fs.walk links dir rest
    else if name = ".." then fs.walk links dir.dropLast rest
    else if name.utf8ByteSize > maxNameBytes then .error .nameTooLong
    else
      match fs.node? (dir ++ [name]) with
      | none => .error .noSuchFile
      | some (.link target) =>
        -- What the link leads to is looked up from the directory that holds it.
        match links with
        | 0 => .error .tooManyLinks
        | links + 1 => fs.walk links (origin dir target) (components target ++ rest)
      | some _ => fs.walk links (dir ++ [name]) rest
termination_by (links, names.length)

/-- What rules a path out before anything is looked up. -/
def checkPath (path : String) : Except IoError Unit :=
  if path.contains '\x00' then .error .nulInPath
  else if path.isEmpty then .error .noSuchFile
  else if path.utf8ByteSize > maxPathBytes then .error .nameTooLong
  else .ok ()

def resolve (fs : FileSystem) (path : String) : Except IoError Place := do
  checkPath path
  fs.walk maxLinks (origin fs.current path) (components path)

def stat (fs : FileSystem) (path : String) : Except IoError Node := do
  match fs.node? (← fs.resolve path) with
  | some node => return node
  | none => throw .noSuchFile

def isDirectory (fs : FileSystem) (path : String) : Bool :=
  match fs.stat path with
  | .ok .directory => true
  | _ => false

/-- Puts a node at a place, together with the directories above it that are missing. -/
def place (fs : FileSystem) (p : Place) (node : Node) : FileSystem :=
  let missing := ((ancestors p.dropLast).filter fun q => (fs.node? q).isNone).map
    (·, Node.directory)
  { fs with nodes := (p, node) :: missing ++ fs.nodes }

/-- Puts a node at a path without links, relative to the current directory. -/
def add (fs : FileSystem) (path : String) (node : Node) : FileSystem :=
  fs.place (fs.current ++ (names path).filter (· != ".")) node

/-- Makes the directory that `names` lead to. Only the last of them may be missing, and it may not be
one that every directory has. -/
def makeDirectory (fs : FileSystem) (start : Place) (names : List String) :
    Except IoError FileSystem :=
  match names.getLast? with
  | none => .error .fileExists
  | some name => do
    let dir ← fs.walk maxLinks start names.dropLast
    if fs.node? dir ≠ some .directory then throw .notDirectory
    if name = "." || name = ".." then throw .fileExists
    if name.utf8ByteSize > maxNameBytes then throw .nameTooLong
    if (fs.node? (dir ++ [name])).isSome then throw .fileExists
    return fs.place (dir ++ [name]) .directory

/-- Makes the directory that `names` lead to, if it is not there already. -/
def ensureDirectory (fs : FileSystem) (start : Place) (names : List String) :
    Except IoError FileSystem :=
  match fs.makeDirectory start names with
  | .ok fs => .ok fs
  | .error e =>
    match fs.walk maxLinks start names with
    | .ok p => if fs.node? p = some .directory then .ok fs else .error e
    | .error _ => .error e

/-- Makes the directory whose names are given last first, and those above it that are missing. -/
def ensureDirectories (fs : FileSystem) (start : Place) :
    List String → Except IoError FileSystem
  | [] => .ok fs
  | name :: above =>
    let names := (name :: above).reverse
    match fs.makeDirectory start names with
    -- Only a missing directory further up is worth another attempt.
    | .error .noSuchFile => do (← fs.ensureDirectories start above).ensureDirectory start names
    | _ => fs.ensureDirectory start names

/-- Makes the directory `names` lead to, with a `.` after it. The `.` cannot be made together with
the directory it stands in, so only directories further up may be missing. -/
def ensureDotted (fs : FileSystem) (start : Place) (names : List String) :
    Except IoError FileSystem :=
  match fs.makeDirectory start (names ++ ["."]) with
  | .error .noSuchFile => do
    let fs ← fs.ensureDirectories start names.reverse.tail
    fs.ensureDirectory start (names ++ ["."])
  | _ => fs.ensureDirectory start (names ++ ["."])

/-- Makes the directory at `path` and those above it that are missing. -/
def createDirectories (fs : FileSystem) (path : String) : Except IoError FileSystem :=
  if path.isEmpty then .ok fs
  else do
    checkPath path
    let start := origin fs.current path
    let dirs := (names path).filter (· != ".")
    if (names path).getLast? = some "." then fs.ensureDotted start dirs
    else fs.ensureDirectories start dirs.reverse

end FileSystem

end Symbolication
