import Symbolication.FrameLayout
import Symbolication.Text.Field

/-!
The records of a symbol file. A record is one line; its first word says what it records, and the
fields after it are separated by single spaces. Addresses are offsets from the module's base.

    MODULE <os> <cpu> <id> <name>
    INFO <anything>
    FILE <number> <name>
    FUNC [m] <address> <size> <parameter size> <name>
    <address> <size> <line> <file number>
    PUBLIC [m] <address> <parameter size> <name>
    STACK WIN <type> <address> <size> <six sizes> <0 or 1> <program, or base pointer flag>
    STACK CFI INIT <address> <size> <rules>
    STACK CFI <address> <rules>

Numbers are hexadecimal, line and file numbers decimal. `INLINE` and `INLINE_ORIGIN` records may be
present and say nothing here.
-/

namespace Symbolication.SymbolFile

open Text

/-- What the first word of a line announces. -/
inductive RecordKind where
  | ignored
  | header
  | file
  | function
  | publicSymbol
  | stack
  /-- A line record starts with its address. -/
  | line
  deriving DecidableEq, Repr

namespace RecordKind

/-- The kind announced by a line's first word. An empty word counts as a run of digits. -/
def ofWord? (word : List Char) : Option RecordKind :=
  if word = "INLINE".toList ∨ word = "INLINE_ORIGIN".toList ∨ word = "INFO".toList then
    some ignored
  else if word = "MODULE".toList then some header
  else if word = "FILE".toList then some file
  else if word = "FUNC".toList then some function
  else if word = "PUBLIC".toList then some publicSymbol
  else if word = "STACK".toList then some stack
  else if word.all Digits.isHexDigit then some line
  else none

def name : RecordKind → String
  | ignored => "INFO record"
  | header => "MODULE record"
  | file => "FILE record"
  | function => "FUNC record"
  | publicSymbol => "PUBLIC record"
  | stack => "STACK record"
  | line => "line record"

end RecordKind

/-- What a symbol file says about the module as a whole. -/
structure Header where
  os : String
  cpu : String
  id : String
  name : String
  deriving DecidableEq, Repr

/-- A function's address range, with its name and the size of its parameters. -/
structure FunctionHead where
  base : UInt64
  size : UInt64
  parameterSize : UInt32
  name : String
  deriving DecidableEq, Repr

structure SourceLine where
  line : UInt32
  file : UInt32
  deriving DecidableEq, Repr

/-- A symbol of which only the address is known. -/
structure PublicSymbol where
  name : String
  parameterSize : UInt32
  deriving DecidableEq, Repr

inductive Record where
  | ignored
  | header (header : Header)
  | file (number : UInt32) (name : String)
  | function (head : FunctionHead)
  | publicSymbol (address : UInt64) (symbol : PublicSymbol)
  | line (base size : UInt64) (source : SourceLine)
  | layout (base size : UInt64) (layout : FrameLayout)
  /-- A layout record whose type and program flag contradict each other. -/
  | mismatchedLayout (base : UInt64) (type : UInt32) (hasProgram : Bool)
  | cfiInit (base size : UInt64) (rules : String)
  | cfiDelta (address : UInt64) (rules : String)
  deriving DecidableEq, Repr

namespace Record

open FieldReader (field remainder nonemptyRemainder skipWord noMore hex64 hex32 decimal32)

def stringField : FieldReader String := return String.ofList (← field)

def headerReader : FieldReader Header := do
  let os ← stringField
  let cpu ← stringField
  let id ← stringField
  return ⟨os, cpu, id, String.ofList (← nonemptyRemainder)⟩

def fileReader : FieldReader (UInt32 × String) := do
  let number ← decimal32
  return (number, String.ofList (← nonemptyRemainder))

/-- The mark of a record that stands for several equal ones. -/
def multipleMark : List Char := ['m']

def functionReader : FieldReader FunctionHead := do
  skipWord multipleMark
  let base ← hex64
  let size ← hex64
  let parameterSize ← hex32
  return ⟨base, size, parameterSize, String.ofList (← remainder)⟩

def publicReader : FieldReader (UInt64 × PublicSymbol) := do
  skipWord multipleMark
  let address ← hex64
  let parameterSize ← hex32
  return (address, ⟨String.ofList (← remainder), parameterSize⟩)

def lineReader : FieldReader Record := do
  let base ← hex64
  let size ← hex64
  let line ← decimal32
  let file ← decimal32
  noMore
  return .line base size ⟨line, file⟩

/-- The flag that says whether a layout record ends with a program. -/
def programFlag : FieldReader Bool := do
  let flag ← field
  if flag = ['0'] then return false
  else if flag = ['1'] then return true
  else failure

/-- The end of a layout record: a program, or whether the base pointer is a general register. -/
def layoutTail? (hasProgram : Bool) (last : List Char) : Option (Bool × Option String) :=
  if hasProgram then some (false, some (String.ofList last))
  else (Digits.hex64? last).map fun flag => (flag != 0, none)

def layoutReader : FieldReader Record := do
  let type ← hex32
  let base ← hex64
  let size ← hex64
  let prologueSize ← hex32
  let epilogueSize ← hex32
  let parameterSize ← hex32
  let savedRegisterSize ← hex32
  let localSize ← hex32
  let maxStackSize ← hex32
  let hasProgram ← programFlag
  let last ← remainder
  let kind := LayoutKind.ofNumber type
  -- A contradictory record is set aside whatever its last field holds.
  if decide (kind = .frameData) != hasProgram then
    return .mismatchedLayout base type hasProgram
  let (allocatesBasePointer, program) ← layoutTail? hasProgram last
  return .layout base size {
    kind, valid := .all, prologueSize, epilogueSize, parameterSize, savedRegisterSize, localSize
    maxStackSize, allocatesBasePointer, program }

def cfiInitReader : FieldReader Record := do
  let base ← hex64
  let size ← hex64
  return .cfiInit base size (String.ofList (← nonemptyRemainder))

def cfiDeltaReader : FieldReader Record := do
  let address ← hex64
  return .cfiDelta address (String.ofList (← nonemptyRemainder))

def readStack? (rest : List Char) : Option Record := do
  let (kind, rest?) := splitAt? ' ' rest
  let rest ← rest?
  if kind = "WIN".toList then FieldReader.read? layoutReader rest
  else if kind = "CFI".toList then
    match "INIT ".toList.isPrefixOf? rest with
    | some rest => FieldReader.read? cfiInitReader rest
    | none => FieldReader.read? cfiDeltaReader rest
  else none

/-- Reads a line of a known kind; `none` if its fields are malformed. -/
def read? (kind : RecordKind) (line : List Char) : Option Record :=
  let rest := ((splitAt? ' ' line).2).getD []
  match kind with
  | .ignored => some .ignored
  | .header => (FieldReader.read? headerReader rest).map .header
  | .file => (FieldReader.read? fileReader rest).map fun (number, name) => .file number name
  | .function => (FieldReader.read? functionReader rest).map .function
  | .publicSymbol =>
    (FieldReader.read? publicReader rest).map fun (address, symbol) => .publicSymbol address symbol
  | .stack => readStack? rest
  -- The first word of a line record is its address and has to be read again.
  | .line => FieldReader.read? lineReader line

end Record

/-- What the first word of `line` announces. -/
def kindOfLine? (line : List Char) : Option RecordKind :=
  RecordKind.ofWord? (splitAt? ' ' line).1

end Symbolication.SymbolFile
