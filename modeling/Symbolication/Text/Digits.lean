/-!
Unsigned numbers as text: reading a run of digits as a machine word, and writing a word in
hexadecimal. A number that does not fit the word is not read at all.
-/

namespace Symbolication.Digits

def decimalDigit? (c : Char) : Option Nat :=
  if '0' ≤ c && c ≤ '9' then some (c.toNat - '0'.toNat) else none

/-- The value of a hexadecimal digit of either case. -/
def hexDigit? (c : Char) : Option Nat :=
  if '0' ≤ c && c ≤ '9' then some (c.toNat - '0'.toNat)
  else if 'a' ≤ c && c ≤ 'f' then some (c.toNat - 'a'.toNat + 10)
  else if 'A' ≤ c && c ≤ 'F' then some (c.toNat - 'A'.toNat + 10)
  else none

def isDecimalDigit (c : Char) : Bool := (decimalDigit? c).isSome

def isHexDigit (c : Char) : Bool := (hexDigit? c).isSome

/-- The number that `cs` continues, when the digits before it have the value `acc`. -/
def valueFrom (base : Nat) (digit? : Char → Option Nat) (acc : Nat) : List Char → Option Nat
  | [] => some acc
  | c :: cs => (digit? c).bind fun d => valueFrom base digit? (acc * base + d) cs

/-- The number written by a non-empty run of digits. -/
def value? (base : Nat) (digit? : Char → Option Nat) : List Char → Option Nat
  | [] => none
  | cs => valueFrom base digit? 0 cs

def hex? (cs : List Char) : Option Nat := value? 16 hexDigit? cs

def decimal? (cs : List Char) : Option Nat := value? 10 decimalDigit? cs

def word64? (n : Nat) : Option UInt64 :=
  if n < UInt64.size then some (UInt64.ofNat n) else none

def word32? (n : Nat) : Option UInt32 :=
  if n < UInt32.size then some (UInt32.ofNat n) else none

def hex64? (cs : List Char) : Option UInt64 := (hex? cs).bind word64?

def hex32? (cs : List Char) : Option UInt32 := (hex? cs).bind word32?

def decimal64? (cs : List Char) : Option UInt64 := (decimal? cs).bind word64?

def decimal32? (cs : List Char) : Option UInt32 := (decimal? cs).bind word32?

/-- The lower-case hexadecimal digits of `n`, without leading zeros. -/
def hexDigits (n : Nat) : String := String.ofList (Nat.toDigits 16 n)

/-- `0x` and the hexadecimal digits of `n`, without leading zeros. -/
def hexText (n : UInt64) : String := "0x" ++ hexDigits n.toNat

/-- `0x` and all sixteen hexadecimal digits of `n`. -/
def fullHexText (n : UInt64) : String :=
  let digits := Nat.toDigits 16 n.toNat
  "0x" ++ String.ofList (List.replicate (16 - digits.length) '0' ++ digits)

end Symbolication.Digits
