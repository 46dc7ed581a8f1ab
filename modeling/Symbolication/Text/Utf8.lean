/-!
Bytes as UTF-8 text. Ill-formed input does not stop the decoder: each maximal ill-formed stretch,
a lead byte with the continuation bytes that could still belong to it, decodes to nothing and is
shown as U+FFFD.
-/

namespace Symbolication.Utf8

/-- Where a decoder stands between two bytes. -/
inductive State where
  | start
  /-- Inside a character with the bits `bits` so far: `more + 1` continuation bytes are owed, and
  the next one lies between `lo` and `hi`. -/
  | inside (bits : Nat) (more : Nat) (lo hi : UInt8)
  deriving DecidableEq, Repr

/-- The state after a byte that starts a character, and what that byte alone decodes to. -/
def lead (b : UInt8) : State × List (Option Char) :=
  if b < 0x80 then (.start, [some (Char.ofNat b.toNat)])
  else if 0xC2 ≤ b && b ≤ 0xDF then (.inside (b.toNat - 0xC0) 0 0x80 0xBF, [])
  else if b = 0xE0 then (.inside 0 1 0xA0 0xBF, [])
  else if b = 0xED then (.inside 0xD 1 0x80 0x9F, [])
  else if 0xE1 ≤ b && b ≤ 0xEF then (.inside (b.toNat - 0xE0) 1 0x80 0xBF, [])
  else if b = 0xF0 then (.inside 0 2 0x90 0xBF, [])
  else if 0xF1 ≤ b && b ≤ 0xF3 then (.inside (b.toNat - 0xF0) 2 0x80 0xBF, [])
  else if b = 0xF4 then (.inside 4 2 0x80 0x8F, [])
  else (.start, [none])

/-- The state after one more byte, and the characters that byte completes. -/
def step (s : State) (b : UInt8) : State × List (Option Char) :=
  match s with
  | .start => lead b
  | .inside bits more lo hi =>
    if lo ≤ b && b ≤ hi then
      let bits := bits * 64 + (b.toNat - 0x80)
      match more with
      | 0 => (.start, [some (Char.ofNat bits)])
      | more + 1 => (.inside bits more 0x80 0xBF, [])
    else
      -- The stretch ends before `b`, which may start a character of its own.
      let (next, out) := lead b
      (next, none :: out)

/-- The characters that `bytes` decode to from state `s`, `none` for each ill-formed stretch. -/
def scalarsFrom (s : State) : List UInt8 → List (Option Char)
  | [] =>
    match s with
    | .start => []
    | .inside .. => [none]
  | b :: bytes =>
    let (next, out) := step s b
    out ++ scalarsFrom next bytes

def scalars (bytes : List UInt8) : List (Option Char) := scalarsFrom .start bytes

/-- The replacement character, which stands for an ill-formed stretch. -/
def replacement : Char := '\uFFFD'

/-- The text of `bytes`, ill-formed stretches shown as the replacement character. -/
def decodeLossy (bytes : List UInt8) : List Char :=
  (scalars bytes).map (·.getD replacement)

def isWellFormed (bytes : List UInt8) : Bool := (scalars bytes).all Option.isSome

end Symbolication.Utf8
