/-!
Punycode (RFC 3492) as mangled names use it: digits are lower-case letters and decimal digits, the
text is at most 128 characters long, and deltas are refused when they leave 64 bits.
-/

namespace Symbolication.Demangling.Punycode

/-- The most characters that a decoded identifier may have. -/
def maxLength : Nat := 128

/-- Numbers stay below this bound while a text is decoded. -/
def bound : Nat := UInt64.size

def digit? (c : Char) : Option Nat :=
  if 'a' ≤ c && c ≤ 'z' then some (c.toNat - 'a'.toNat)
  else if '0' ≤ c && c ≤ '9' then some (c.toNat - '0'.toNat + 26)
  else none

/-- The threshold of the digit at place `k`, counted in steps of 36. -/
def threshold (k bias : Nat) : Nat := min (max (k - bias) 1) 26

def checked (n : Nat) : Option Nat := if n < bound then some n else none

/-- Reads one delta: its digits from the place after `k` on, the first of weight `weight`, added to
`delta`. -/
def readDelta (bias k weight delta : Nat) : List Char → Option (Nat × List Char)
  | [] => none
  | c :: cs => do
    let k := k + 36
    let t := threshold k bias
    let d ← digit? c
    let delta ← checked (delta + (← checked (d * weight)))
    if d < t then return (delta, cs)
    readDelta bias k (← checked (weight * (36 - t))) delta cs

theorem readDelta_shorter {bias k weight delta d : Nat} {cs rest : List Char}
    (h : readDelta bias k weight delta cs = some (d, rest)) : rest.length < cs.length := by
  induction cs generalizing k weight delta with
  | nil => simp [readDelta] at h
  | cons c cs ih =>
    simp only [readDelta, Option.bind_eq_bind, Option.bind_eq_some_iff] at h
    obtain ⟨d', _, m, _, s, _, h⟩ := h
    split at h
    · cases h
      simp
    · obtain ⟨w, _, h⟩ := Option.bind_eq_some_iff.mp h
      exact Nat.lt_succ_of_lt (ih h)

/-- Divides `delta` by 35 until it is at most 455, counting the divisions in steps of 36. -/
def scale (k delta : Nat) : Nat × Nat :=
  if 455 < delta then scale (k + 36) (delta / 35) else (k, delta)
termination_by delta
decreasing_by omega

/-- The bias after a delta that was damped by `damp`, when `length` characters are there. -/
def adapt (delta damp length : Nat) : Nat :=
  let delta := delta / damp
  let (k, delta) := scale 0 (delta + delta / length)
  k + 36 * delta / (delta + 38)

/-- Reads deltas and inserts a character for each: `i` is the place after the last insertion and `n`
the code point it inserted. -/
def insertAll (out : List Char) (i n bias damp : Nat) (cs : List Char) : Option (List Char) :=
  match h : readDelta bias 0 1 0 cs with
  | none => none
  | some (delta, rest) => do
    let length := out.length + 1
    let i ← checked (i + delta)
    let n ← checked (n + i / length)
    let i := i % length
    if !n.isValidChar || maxLength ≤ out.length then none
    let out := out.take i ++ Char.ofNat n :: out.drop i
    -- The last delta is not followed by a change of bias.
    if rest.isEmpty then return out
    insertAll out (i + 1) n (adapt delta damp length) 2 rest
termination_by cs.length
decreasing_by exact readDelta_shorter h

/-- The text of an identifier with the ASCII characters `ascii` and the deltas `deltas`. -/
def decode? (ascii deltas : List Char) : Option (List Char) :=
  if deltas.isEmpty || maxLength < ascii.length then none
  else insertAll ascii 0 0x80 72 700 deltas

end Symbolication.Demangling.Punycode
