import Symbolication.Text.Digits

/-!
Addresses in the memory of a crashed process. Sums and differences wrap at 64 bits unless they are
asked for checked.
-/

namespace Symbolication

/-- A place in the memory of a process, as opposed to an offset inside one of its modules. -/
structure Address where
  value : UInt64
  deriving DecidableEq, Repr, Ord, Inhabited

namespace Address

def zero : Address := ⟨0⟩

/-- The address `offset` bytes further on, modulo 2^64. -/
def add (a : Address) (offset : UInt64) : Address := ⟨a.value + offset⟩

/-- The address `offset` bytes before, modulo 2^64. -/
def sub (a : Address) (offset : UInt64) : Address := ⟨a.value - offset⟩

/-- The address `offset` bytes further on, if there is one. -/
def add? (a : Address) (offset : UInt64) : Option Address :=
  if a.value.toNat + offset.toNat < UInt64.size then some (a.add offset) else none

/-- The address `offset` bytes before, if there is one. -/
def sub? (a : Address) (offset : UInt64) : Option Address :=
  if offset ≤ a.value then some (a.sub offset) else none

/-- How far `a` lies above `base`, if it does not lie below it. -/
def offsetFrom? (a base : Address) : Option UInt64 :=
  if base.value ≤ a.value then some (a.value - base.value) else none

/-- An address is written with all sixteen digits. -/
def text (a : Address) : String := Digits.fullHexText a.value

instance : ToString Address := ⟨text⟩

end Address

end Symbolication
