import Symbolication.Text.Digits
import Symbolication.Text.Utf8

/-!
Reading the pieces that v0 mangled names are made of: numbers in base 62, identifiers, hexadecimal
values, and references back to an earlier place. A cursor also counts how deeply the productions
around it are nested.
-/

namespace Symbolication.Demangling

/-- Why a name cannot be read on. -/
inductive Fault where
  | invalid
  | tooDeep
  deriving DecidableEq, Repr

namespace Fault

def text : Fault → String
  | invalid => "\x7binvalid syntax\x7d"
  | tooDeep => "\x7brecursion limit reached\x7d"

end Fault

/-- A place in a name: what is left from there, how much came before, and the nesting. -/
structure Cursor where
  rest : List Char
  position : Nat := 0
  depth : Nat := 0
  deriving DecidableEq, Repr

/-- An identifier: its ASCII characters, and the deltas for the others in punycode. -/
structure Ident where
  ascii : List Char
  deltas : List Char := []
  deriving DecidableEq, Repr

namespace Ident

def isEmpty (i : Ident) : Bool := i.ascii.isEmpty && i.deltas.isEmpty

end Ident

abbrev Reader := StateT Cursor (Except Fault)

namespace Reader

def maxDepth : Nat := 500

def wordBound : Nat := UInt64.size

def next : Reader Char := fun c =>
  match c.rest with
  | [] => .error .invalid
  | x :: rest => .ok (x, { c with rest, position := c.position + 1 })

/-- Passes `x` if it comes next, and tells whether it did. -/
def eat (x : Char) : Reader Bool := fun c =>
  match c.rest with
  | y :: rest =>
    if y = x then .ok (true, { c with rest, position := c.position + 1 }) else .ok (false, c)
  | [] => .ok (false, c)

def advance (n : Nat) : Reader (List Char) := fun c =>
  if n ≤ c.rest.length then
    .ok (c.rest.take n, { c with rest := c.rest.drop n, position := c.position + n })
  else .error .invalid

def takeWhile (p : Char → Bool) : Reader (List Char) := fun c =>
  let front := c.rest.takeWhile p
  .ok (front, { c with rest := c.rest.drop front.length, position := c.position + front.length })

def descend : Reader Unit := fun c =>
  if c.depth < maxDepth then .ok ((), { c with depth := c.depth + 1 }) else .error .tooDeep

def digit62? (c : Char) : Option Nat :=
  if '0' ≤ c && c ≤ '9' then some (c.toNat - '0'.toNat)
  else if 'a' ≤ c && c ≤ 'z' then some (c.toNat - 'a'.toNat + 10)
  else if 'A' ≤ c && c ≤ 'Z' then some (c.toNat - 'A'.toNat + 36)
  else none

def checked (n : Nat) : Reader Nat := if n < wordBound then return n else throw .invalid

/-- A number in base 62 with an underscore after it; the underscore alone is 0, and any digits stand
for one more than their value. -/
def integer : Reader Nat := do
  if ← eat '_' then return 0
  let digits ← takeWhile (digit62? · |>.isSome)
  if !(← eat '_') then throw .invalid
  match Digits.valueFrom 62 digit62? 0 digits with
  | some n => checked (n + 1)
  | none => throw .invalid

/-- A number after `tag`, plus one; 0 if there is no tag. -/
def taggedInteger (tag : Char) : Reader Nat := do
  if ← eat tag then checked ((← integer) + 1) else return 0

/-- The number that tells things of one name apart. -/
def disambiguator : Reader Nat := taggedInteger 's'

/-- The namespace of a name: an upper-case letter if it is a special one. -/
def space : Reader (Option Char) := do
  let c ← next
  if c.isUpper then return some c
  else if c.isLower then return none
  else throw .invalid

/-- A decimal length. A leading 0 is the whole number. -/
def length : Reader Nat := do
  if ← eat '0' then return 0
  match Digits.decimal? (← takeWhile Digits.isDecimalDigit) with
  | some n => return n
  | none => throw .invalid

/-- Cuts an identifier in punycode at its last underscore. -/
def splitDeltas (cs : List Char) : Ident :=
  let deltas := (cs.reverse.takeWhile (· != '_')).reverse
  ⟨cs.take (cs.length - deltas.length - 1), deltas⟩

def ident : Reader Ident := do
  let encoded ← eat 'u'
  let n ← length
  let _ ← eat '_'
  let cs ← advance n
  if !encoded then return ⟨cs, []⟩
  let i := splitDeltas cs
  if i.deltas.isEmpty then throw .invalid
  return i

/-- Hexadecimal digits with an underscore after them. -/
def nibbles : Reader (List Char) := do
  let cs ← takeWhile fun c => Digits.isHexDigit c && !c.isUpper
  if ← eat '_' then return cs else throw .invalid

/-- The place that a reference back leads to, in the name `name`. It must lie before the tag of the
reference, which was just read. -/
def backref (name : List Char) : Reader Cursor := do
  let start := (← get).position - 1
  let i ← integer
  if start ≤ i then throw .invalid
  let c ← get
  if c.depth < maxDepth then return ⟨name.drop i, i, c.depth + 1⟩ else throw .tooDeep

end Reader

/-- The value of hexadecimal digits, if it fits 64 bits. -/
def nibblesValue? (cs : List Char) : Option Nat := do
  if 16 < (cs.dropWhile (· == '0')).length then none
  Digits.valueFrom 16 Digits.hexDigit? 0 cs

/-- The bytes written by pairs of hexadecimal digits. -/
def nibblesBytes? : List Char → Option (List UInt8)
  | [] => some []
  | [_] => none
  | a :: b :: rest => do
    let n ← Digits.hex? [a, b]
    return UInt8.ofNat n :: (← nibblesBytes? rest)

/-- The text whose UTF-8 form is written in hexadecimal. -/
def nibblesText? (cs : List Char) : Option (List Char) := do
  (Utf8.scalars (← nibblesBytes? cs)).mapM id

end Symbolication.Demangling
