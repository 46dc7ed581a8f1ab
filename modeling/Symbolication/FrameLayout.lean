/-!
Stack-frame layouts on 32-bit Windows: how much of a frame its parameters, saved registers and
locals take, and how the caller's registers are found.
-/

namespace Symbolication

inductive LayoutKind where
  | fpo
  | trap
  | tss
  | standard
  | frameData
  | unknown
  deriving DecidableEq, Repr

namespace LayoutKind

/-- The kind with the number `n` in a symbol file. -/
def ofNumber (n : UInt32) : LayoutKind :=
  if n = 0 then fpo
  else if n = 1 then trap
  else if n = 2 then tss
  else if n = 3 then standard
  else if n = 4 then frameData
  else unknown

end LayoutKind

/-- How much of a layout is known. -/
inductive LayoutValidity where
  | none
  /-- The size of the parameters, from the record of a function or public symbol. -/
  | parameterSize
  /-- Everything, from a layout record. -/
  | all
  deriving DecidableEq, Repr

structure FrameLayout where
  kind : LayoutKind
  valid : LayoutValidity
  prologueSize : UInt32
  epilogueSize : UInt32
  parameterSize : UInt32
  savedRegisterSize : UInt32
  localSize : UInt32
  maxStackSize : UInt32
  /-- Whether the code uses the base pointer as a general register. -/
  allocatesBasePointer : Bool
  /-- A postfix program that recovers the caller's registers. -/
  program : Option String
  deriving DecidableEq, Repr

namespace FrameLayout

/-- The layout of which only the size of the parameters is known. -/
def ofParameterSize (n : UInt32) : FrameLayout where
  kind := .unknown
  valid := .parameterSize
  prologueSize := 0
  epilogueSize := 0
  parameterSize := n
  savedRegisterSize := 0
  localSize := 0
  maxStackSize := 0
  allocatesBasePointer := false
  program := none

def isComplete (info : FrameLayout) : Bool := info.valid = .all

end FrameLayout

end Symbolication
