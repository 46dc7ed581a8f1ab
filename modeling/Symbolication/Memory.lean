/-!
Memory of the crashed process, as far as it can be read. Words are little-endian.
-/

namespace Symbolication

/-- The words that can be read at each address. -/
structure Memory where
  read64? : UInt64 → Option UInt64
  read32? : UInt64 → Option UInt32

namespace Memory

def none : Memory := ⟨fun _ => .none, fun _ => .none⟩

/-- Memory in which a short word is the low half of a long one at the same address. -/
def ofRead64 (read64? : UInt64 → Option UInt64) : Memory where
  read64? := read64?
  read32? address := (read64? address).map UInt64.toUInt32

/-- The number written by bytes, least significant first. -/
def littleEndian : List UInt8 → Nat
  | [] => 0
  | b :: bs => b.toNat + 256 * littleEndian bs

/-- The `count` bytes at `address`, if all of them lie in `bytes`, which start at `base`. -/
def slice? (base : UInt64) (bytes : List UInt8) (address : UInt64) (count : Nat) :
    Option (List UInt8) :=
  let offset := (address - base).toNat
  if base ≤ address && offset + count ≤ bytes.length then
    some ((bytes.drop offset).take count)
  else
    .none

/-- Memory that holds `bytes` from `base` on and nothing else. -/
def ofBytes (base : UInt64) (bytes : List UInt8) : Memory where
  read64? address := (slice? base bytes address 8).map (UInt64.ofNat <| littleEndian ·)
  read32? address := (slice? base bytes address 4).map (UInt32.ofNat <| littleEndian ·)

end Memory

end Symbolication
