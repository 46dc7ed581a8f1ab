import Symbolication.Text.Digits
import Symbolication.Text.Token

/-!
The tokens of postfix programs: operators, numbers, and identifiers for registers and variables.
-/

namespace Symbolication.Postfix

inductive BinaryOp where
  | add
  | sub
  | mul
  | div
  | mod
  /-- `a @ b` is the greatest multiple of `b` at or below `a`, for `b` a power of two. -/
  | align
  deriving DecidableEq, Repr

namespace BinaryOp

def symbol : BinaryOp → Char
  | add => '+'
  | sub => '-'
  | mul => '*'
  | div => '/'
  | mod => '%'
  | align => '@'

def all : List BinaryOp := [add, sub, mul, div, mod, align]

def ofSymbol? (c : Char) : Option BinaryOp := all.find? (·.symbol == c)

end BinaryOp

inductive Token where
  | binary (op : BinaryOp)
  /-- Replaces an address by what memory holds there. -/
  | dereference
  | assign
  | number (value : UInt64)
  | identifier (name : String)
  /-- Something that starts like a number and is none, or does not fit 64 bits. -/
  | malformed (text : String)
  deriving DecidableEq, Repr

namespace Token

/-- The magnitude of a number in hexadecimal; a plus sign before its digits is let pass. -/
def hexMagnitude? : List Char → Option UInt64
  | '+' :: digits => Digits.hex64? digits
  | digits => Digits.hex64? digits

/-- The magnitude of a number: decimal, or hexadecimal after `0x`. -/
def magnitude? : List Char → Option UInt64
  | '0' :: 'x' :: digits => hexMagnitude? digits
  | '0' :: 'X' :: digits => hexMagnitude? digits
  | digits => Digits.decimal64? digits

/-- Splits off a minus sign that has something after it. -/
def splitSign : List Char → Bool × List Char
  | '-' :: c :: cs => (true, c :: cs)
  | cs => (false, cs)

/-- A token that is no operator. -/
def ofOperand (text : List Char) : Token :=
  let (negative, digits) := splitSign text
  match magnitude? digits with
  | some value => .number (if negative then -value else value)
  | none =>
    -- After a minus sign or a digit only a number makes sense.
    if negative || (digits.head?.any Digits.isDecimalDigit) then .malformed (String.ofList text)
    else .identifier (String.ofList text)

def ofText : List Char → Token
  | ['='] => .assign
  | ['^'] => .dereference
  | [c] =>
    match BinaryOp.ofSymbol? c with
    | some op => .binary op
    | none => ofOperand [c]
  | text => ofOperand text

end Token

def tokens (text : String) : List Token := (Text.tokens text.toList).map .ofText

end Symbolication.Postfix
