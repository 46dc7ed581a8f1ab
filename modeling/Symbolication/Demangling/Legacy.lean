import Symbolication.Demangling.Page
import Symbolication.Text.Digits
import Symbolication.Text.Field

/-!
The older mangling: the elements of a path, each after its length, between `_ZN` and `E`. Characters
that linkers do not take are written as escapes between dollar signs.
-/

namespace Symbolication.Demangling.Legacy

/-- What may stand before the elements; the first that fits counts. -/
def prefixes : List (List Char) := ["_ZN".toList, "ZN".toList, "__ZN".toList]

theorem length_dropWhile_digits {n : Nat} {cs : List Char}
    (h : Digits.decimal? (cs.takeWhile Digits.isDecimalDigit) = some n) :
    (cs.dropWhile Digits.isDecimalDigit).length < cs.length := by
  have hpos : 0 < (cs.takeWhile Digits.isDecimalDigit).length := by
    cases hd : cs.takeWhile Digits.isDecimalDigit with
    | nil => simp [hd, Digits.decimal?, Digits.value?] at h
    | cons => simp
  have hsum := congrArg List.length
    (List.takeWhile_append_dropWhile (p := Digits.isDecimalDigit) (l := cs))
  rw [List.length_append] at hsum
  omega

/-- Reads elements up to the `E` after them; something has to follow every element. -/
def elements? (cs : List Char) : Option (List (List Char) × List Char) :=
  if cs.head? = some 'E' then some ([], cs.drop 1)
  else
    match _h : Digits.decimal? (cs.takeWhile Digits.isDecimalDigit) with
    | none => none
    | some n =>
      let body := cs.dropWhile Digits.isDecimalDigit
      -- An element may not reach the end: an `E` or another length has to follow.
      if n < body.length then do
        let (more, rest) ← elements? (body.drop n)
        return (body.take n :: more, rest)
      else none
termination_by cs.length
decreasing_by
  have := length_dropWhile_digits _h
  simp only [List.length_drop]
  omega

/-- Whether an element is a hash: `h` and hexadecimal digits. -/
def isHash : List Char → Bool
  | 'h' :: digits => digits.all Digits.isHexDigit
  | _ => false

def namedEscapes : List (List Char × Char) := [
  ("SP".toList, '@'), ("BP".toList, '*'), ("RF".toList, '&'), ("LT".toList, '<'),
  ("GT".toList, '>'), ("LP".toList, '('), ("RP".toList, ')'), ("C".toList, ',')]

def isControl (c : Char) : Bool := c.toNat < 0x20 || (0x7F ≤ c.toNat && c.toNat < 0xA0)

def isLowerHex (c : Char) : Bool := Digits.isHexDigit c && !c.isUpper

/-- The character with the escape `name`: one of the named ones, or `u` and a code point. -/
def unescape? (name : List Char) : Option Char :=
  match namedEscapes.lookup name with
  | some c => some c
  | none =>
    match name with
    | 'u' :: digits => do
      if !digits.all isLowerHex then none
      let n ← Digits.hex? digits
      if !n.isValidChar || isControl (Char.ofNat n) then none
      return Char.ofNat n
    | _ => none

/-- Whether a character neither starts an escape nor stands for a separator. -/
def isPlain (c : Char) : Bool := c != '$' && c != '.'

/-- An element as it reads, piece by piece. An escape that is none stops the reading, and the rest of
the element is shown as it stands. -/
def elementPieces (cs : List Char) : List (List Char) :=
  match cs with
  | [] => []
  | '.' :: '.' :: rest => [':', ':'] :: elementPieces rest
  | '.' :: rest => ['.'] :: elementPieces rest
  | '$' :: rest =>
    match _h : Text.splitAt? '$' rest with
    | (name, some after) =>
      match unescape? name with
      | some c => [c] :: elementPieces after
      | none => [cs]
    | (_, none) => [cs]
  | c :: rest => (c :: rest.takeWhile isPlain) :: elementPieces (rest.dropWhile isPlain)
termination_by cs.length
decreasing_by
  · simp only [List.length_cons]
    omega
  · simp only [List.length_cons]
    omega
  · have := Text.length_splitAt? _h
    simp only [List.length_cons]
    omega
  · have := (rest.dropWhile_sublist isPlain).length_le
    simp only [List.length_cons]
    omega

/-- An element without the underscore that keeps a leading escape from looking like a prefix. -/
def stripGuard : List Char → List Char
  | '_' :: '$' :: rest => '$' :: rest
  | cs => cs

/-- The elements that are shown: all but a hash at the end. -/
def shown (elements : List (List Char)) : List (List Char) :=
  if elements.getLast?.any isHash then elements.dropLast else elements

def render (elements : List (List Char)) : String :=
  let pieces := (shown elements).map fun cs => elementPieces (stripGuard cs)
  Page.textWith {} ((["::".toList].intercalate pieces).map String.ofList)

/-- The readable form of a mangled name, and what stands after it. -/
def demangle? (name : List Char) : Option (String × List Char) := do
  let body ← prefixes.findSome? (·.isPrefixOf? name)
  if body.any (fun c => 0x80 ≤ c.toNat) then none
  let (elements, rest) ← elements? body
  return (render elements, rest)

end Symbolication.Demangling.Legacy
