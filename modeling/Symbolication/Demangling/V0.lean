import Symbolication.Demangling.Printer
import Symbolication.Text.Field

/-!
The v0 mangling: a grammar of paths, types and constants behind the mark `_R`, with references back
to earlier parts of the name. Each production is written as it is read. The productions refer to
each other, so each is given the means to print the others; nesting is limited, and one printer that
may be nested as deeply as that ties them together.
-/

namespace Symbolication.Demangling.V0

open Printing (read eat emit emitChar emitNat emitIdent emitQuoted emitLifetime invalid ascend
  separated atBackref)

/-- What can be printed from a place in a name. -/
inductive Production where
  /-- A path; one in value position has `::` before its generic arguments. -/
  | path (inValue : Bool)
  | type
  /-- A constant; one inside another needs no braces. -/
  | const (inConst : Bool)
  | genericArg
  | dynTrait
  /-- A path that leaves the angle bracket of its generic arguments open, and tells whether it has
  any. -/
  | openPath
  | pattern
  deriving DecidableEq, Repr

/-- Prints a production, and answers what `openPath` tells. -/
abbrev Print := Production → Printing Bool

namespace Print

variable (print : Print)

def one (p : Production) : Printing Unit := do
  let _ ← print p

/-- The types that a single lower-case letter stands for. -/
def basicTypes : List (Char × String) := [
  ('a', "i8"), ('b', "bool"), ('c', "char"), ('d', "f64"), ('e', "str"), ('f', "f32"), ('h', "u8"),
  ('i', "isize"), ('j', "usize"), ('l', "i32"), ('m', "u32"), ('n', "i128"), ('o', "u128"),
  ('p', "_"), ('s', "i16"), ('t', "u16"), ('u', "()"), ('v', "..."), ('x', "i64"), ('y', "u64"),
  ('z', "!")]

/-- A name in a special namespace: the kind, the name if it has one, and its number. -/
def specialName (space : Char) (dis : Nat) (name : Ident) : Printing Unit := do
  emit "::\x7b"
  match space with
  | 'C' => emit "closure"
  | 'S' => emit "shim"
  | c => emitChar c
  if !name.isEmpty then
    emit ":"
    emitIdent name
  emit "#"
  emitNat dis
  emit "\x7d"

def nested (inValue : Bool) : Printing Unit := do
  let some space ← read Reader.space | return
  print.one (.path inValue)
  -- What follows shows as a question mark now, which has to stand apart from the path.
  if ← Printing.isFaulty then emit "::"
  let some dis ← read Reader.disambiguator | return
  let some name ← read Reader.ident | return
  match space with
  | some space => specialName space dis name
  | none =>
    if !name.isEmpty then
      emit "::"
      emitIdent name

/-- The subject of an `impl`: a type, and the trait if `withTrait`. -/
def subject (withTrait : Bool) : Printing Unit := do
  emit "<"
  print.one .type
  if withTrait then
    emit " as "
    print.one (.path false)
  emit ">"

/-- An `impl`, whose own path is not shown. -/
def impl (withTrait : Bool) : Printing Unit := do
  let some _ ← read Reader.disambiguator | return
  Printing.silently (print.one (.path false))
  print.subject withTrait

def genericArgs : Printing Unit := do
  let _ ← separated ", " (print.one .genericArg)

def path (inValue : Bool) : Printing Unit := do
  let some _ ← read Reader.descend | return
  let some tag ← read Reader.next | return
  match tag with
  | 'C' =>
    let some _ ← read Reader.disambiguator | return
    let some name ← read Reader.ident | return
    emitIdent name
  | 'N' => print.nested inValue
  | 'M' => print.impl false
  | 'X' => print.impl true
  | 'Y' => print.subject true
  | 'I' =>
    print.one (.path inValue)
    if inValue then emit "::"
    emit "<"
    print.genericArgs
    emit ">"
  | 'B' => atBackref (print.one (.path inValue))
  | _ => invalid
  ascend

def lifetime : Printing Unit := do
  let some index ← read Reader.integer | return
  emitLifetime index

def genericArg : Printing Unit := do
  if ← eat 'L' then lifetime
  else if ← eat 'K' then print.one (.const false)
  else print.one .type

def reference (mutable : Bool) : Printing Unit := do
  emit "&"
  if ← eat 'L' then
    let some index ← read Reader.integer | return
    if index ≠ 0 then
      emitLifetime index
      emit " "
  if mutable then emit "mut "
  print.one .type

/-- The calling convention of a function, in which dashes are written as underscores. -/
def emitAbi (abi : List Char) : Printing Unit := do
  emit "extern \""
  Printing.emitAll (((Text.pieces '_' abi).map String.ofList).intersperse "-")
  emit "\" "

/-- What is left of a function type after its qualifiers: parameters and result. -/
def signature (isUnsafe : Bool) (abi : Option (List Char)) : Printing Unit := do
  if isUnsafe then emit "unsafe "
  match abi with
  | some abi => emitAbi abi
  | none => pure ()
  emit "fn("
  let _ ← separated ", " (print.one .type)
  emit ")"
  -- A result of the unit type is not shown.
  if ← eat 'u' then return
  emit " -> "
  print.one .type

def functionType : Printing Unit := do
  let isUnsafe ← eat 'U'
  if ← eat 'K' then
    if ← eat 'C' then print.signature isUnsafe (some ['C'])
    else
      let some abi ← read Reader.ident | return
      if abi.ascii.isEmpty || !abi.deltas.isEmpty then invalid
      else print.signature isUnsafe (some abi.ascii)
  else print.signature isUnsafe none

/-- A trait object: its traits, and its lifetime if it has one. -/
def traitObject : Printing Unit := do
  emit "dyn "
  Printing.inBinder do
    let _ ← separated " + " (print.one .dynTrait)
  if ← eat 'L' then
    let some index ← read Reader.integer | return
    if index ≠ 0 then
      emit " + "
      emitLifetime index
  else invalid

/-- A type that is not a basic one, from the letter `tag` it starts with. -/
def compoundType (tag : Char) : Printing Unit := do
  let some _ ← read Reader.descend | return
  match tag with
  | 'R' => print.reference false
  | 'Q' => print.reference true
  | 'P' =>
    emit "*const "
    print.one .type
  | 'O' =>
    emit "*mut "
    print.one .type
  | 'A' =>
    emit "["
    print.one .type
    emit "; "
    print.one (.const true)
    emit "]"
  | 'S' =>
    emit "["
    print.one .type
    emit "]"
  | 'T' =>
    emit "("
    let count ← separated ", " (print.one .type)
    if count = 1 then emit ","
    emit ")"
  | 'F' => Printing.inBinder print.functionType
  | 'D' => print.traitObject
  | 'W' =>
    print.one .type
    emit " is "
    print.one .pattern
  | 'B' => atBackref (print.one .type)
  | _ =>
    -- The letter is the first of a path.
    Printing.unread tag
    print.one (.path false)
  ascend

def type : Printing Unit := do
  if ← eat 'w' then emit "#[splat] "
  let some tag ← read Reader.next | return
  match basicTypes.lookup tag with
  | some name => emit name
  | none => print.compoundType tag

def openPath : Printing Bool := do
  if ← eat 'B' then
    let some target ← read (Reader.backref (← get).name) | return false
    if ← Printing.isSilent then return false
    let after := (← get).cursor
    modify fun p => { p with cursor := some target }
    let isOpen ← print .openPath
    modify fun p => { p with cursor := after }
    return isOpen
  else if ← eat 'I' then
    print.one (.path false)
    emit "<"
    print.genericArgs
    return true
  else
    print.one (.path false)
    return false

/-- The bindings of associated items after a trait. Answers whether the last one was read whole, and
if so whether the bracket is open. -/
def bindings : (fuel : Nat) → (isOpen : Bool) → Printing (Option Bool)
  | 0, isOpen => return some isOpen
  | fuel + 1, isOpen => do
    if ← eat 'p' then
      emit (if isOpen then ", " else "<")
      let some name ← read Reader.ident | return none
      emitIdent name
      emit " = "
      if ← eat 'K' then print.one (.const false) else print.one .type
      bindings fuel true
    else return some isOpen

/-- A trait of a trait object, with its bindings among its generic arguments. -/
def dynTrait : Printing Unit := do
  let isOpen ← print .openPath
  match ← print.bindings (← Printing.left) isOpen with
  | some true => emit ">"
  | _ => return ()

def pattern : Printing Unit := do
  let some tag ← read Reader.next | return
  match tag with
  | 'R' =>
    print.one (.const false)
    emit "..="
    print.one (.const false)
  | 'O' =>
    let some _ ← read Reader.descend | return
    let _ ← separated " | " (print.one .pattern)
    ascend
  | 'N' => emit "!null"
  | _ => invalid

/-- An unsigned number; one that does not fit 64 bits is shown digit by digit. -/
def number : Printing Unit := do
  let some digits ← read Reader.nibbles | return
  match nibblesValue? digits with
  | some n => emitNat n
  | none =>
    emit "0x"
    emit (String.ofList digits)

def stringLiteral : Printing Unit := do
  let some digits ← read Reader.nibbles | return
  match nibblesText? digits with
  | some cs => emitQuoted '"' cs
  | none => invalid

def charOf? (n : Nat) : Option Char := if n.isValidChar then some (Char.ofNat n) else none

def field : Printing Unit := do
  let some _ ← read Reader.disambiguator | return
  let some name ← read Reader.ident | return
  emitIdent name
  emit ": "
  print.one (.const true)

def constants : Printing Nat := separated ", " (print.one (.const true))

/-- A value of a structure or enumeration. Answers whether it could be read. -/
def aggregate : Printing Bool := do
  print.one (.path true)
  let some tag ← read Reader.next | return false
  match tag with
  | 'U' => return true
  | 'T' =>
    emit "("
    let _ ← print.constants
    emit ")"
    return true
  | 'S' =>
    emit " \x7b "
    let _ ← separated ", " print.field
    emit " \x7d"
    return true
  | _ =>
    invalid
    return false

/-- A constant, from the letter `tag` it starts with, and without the braces around it. Answers
whether it could be read up to its end. -/
def bareConst (inConst : Bool) (tag : Char) : Printing Bool := do
  match tag with
  | 'p' => emit "_"
  | 'h' | 't' | 'm' | 'y' | 'o' | 'j' => number
  | 'a' | 's' | 'l' | 'x' | 'n' | 'i' =>
    if ← eat 'n' then emit "-"
    number
  | 'b' =>
    let some digits ← read Reader.nibbles | return false
    match nibblesValue? digits with
    | some 0 => emit "false"
    | some 1 => emit "true"
    | _ =>
      invalid
      return false
  | 'c' =>
    let some digits ← read Reader.nibbles | return false
    match (nibblesValue? digits).bind charOf? with
    | some c => emitQuoted '\'' [c]
    | none =>
      invalid
      return false
  | 'e' =>
    emit "*"
    stringLiteral
  | 'R' =>
    emit "&"
    print.one (.const true)
  | 'Q' =>
    emit "&mut "
    print.one (.const true)
  | 'A' =>
    emit "["
    let _ ← print.constants
    emit "]"
  | 'T' =>
    emit "("
    let count ← print.constants
    if count = 1 then emit ","
    emit ")"
  | 'V' => return ← print.aggregate
  | 'B' => atBackref (print.one (.const inConst))
  | _ =>
    invalid
    return false
  return true

/-- The constants that need braces unless they stand inside another one. -/
def needsBraces (tag : Char) : Bool :=
  tag = 'e' || tag = 'R' || tag = 'Q' || tag = 'A' || tag = 'T' || tag = 'V'

def const (inConst : Bool) : Printing Unit := do
  let some tag ← read Reader.next | return
  let some _ ← read Reader.descend | return
  -- A reference to a string is a string literal and needs neither sign nor braces.
  let isLiteral ← if tag = 'R' then eat 'e' else pure false
  if isLiteral then
    stringLiteral
    ascend
  else
    let braces := needsBraces tag && !inConst
    if braces then emit "\x7b"
    if ← print.bareConst inConst tag then
      if braces then emit "\x7d"
      ascend

/-- Prints a production by means of a printer for those inside it. -/
def step : Print
  | .path inValue => do
    print.path inValue
    return false
  | .type => do
    print.type
    return false
  | .const inConst => do
    print.const inConst
    return false
  | .genericArg => do
    print.genericArg
    return false
  | .dynTrait => do
    print.dynTrait
    return false
  | .openPath => print.openPath
  | .pattern => do
    print.pattern
    return false

end Print

/-- Prints productions nested up to `fuel` deep. -/
def printNested : (fuel : Nat) → Print
  | 0, _ => do
    Printing.fault .tooDeep
    return false
  | fuel + 1, p => Print.step (printNested fuel) p

/-- How deep productions can be nested: at most three of them, one inside the other, count as one
for the limit on nesting. -/
def fuel : Nat := 4 * (Reader.maxDepth + 1)

def print : Print := printNested fuel

/-- What may stand before a name; the first that fits counts. -/
def prefixes : List (List Char) := ["_R".toList, "R".toList, "__R".toList]

/-- The cursor after a path, which is read without being written. -/
def skipPath (name : List Char) (c : Cursor) : Option Cursor :=
  match (print (.path false)).run { name, cursor := some c, page := none } with
  | .ok _ p => p.cursor
  | .error _ _ => none

/-- What is left of a name after its path and that of the library it is instantiated in. -/
def suffix? (name : List Char) : Option (List Char) := do
  let c ← skipPath name ⟨name, 0, 0⟩
  if c.rest.head?.any Char.isUpper then
    return (← skipPath name c).rest
  else return c.rest

/-- The path of a name as it reads. -/
def render (name : List Char) : String :=
  let start : Printer := { name, cursor := some ⟨name, 0, 0⟩, page := some {} }
  let written (p : Printer) : Page := p.page.getD {}
  match (print (.path true)).run start with
  | .ok _ p => (written p).text
  | .error _ p => (written p).cutText

/-- The readable form of a mangled name, and what stands after it. -/
def demangle? (name : List Char) : Option (String × List Char) := do
  let body ← prefixes.findSome? fun mark =>
    (mark.isPrefixOf? name).filter (!·.isEmpty)
  -- Paths start with an upper-case letter.
  if !body.head?.any Char.isUpper || body.any (fun c => 0x80 ≤ c.toNat) then none
  return (render body, ← suffix? body)

end Symbolication.Demangling.V0
