import Symbolication.RangeMap
import Symbolication.SymbolFile.Record

/-!
The tables that the records of a symbol file fill. Ranges and public symbols keep the first record
stored at an address; file names and rule changes keep the last.
-/

namespace Symbolication.SymbolFile

/-- What is known of a function besides its range. -/
structure Function where
  name : String
  parameterSize : UInt32
  lines : RangeMap SourceLine
  deriving DecidableEq

/-- The symbols of one module. Addresses are offsets from the module's base. -/
structure Tables where
  header : Option Header := none
  files : OrderedMap UInt32 String := ∅
  functions : RangeMap Function := ∅
  publicSymbols : OrderedMap UInt64 PublicSymbol := ∅
  /-- Layouts with a program. -/
  frameDataLayouts : RangeMap FrameLayout := ∅
  /-- Layouts of code compiled without a frame pointer. -/
  fpoLayouts : RangeMap FrameLayout := ∅
  cfiInitial : RangeMap String := ∅
  /-- Rule sets that change the rules in effect from their address on. -/
  cfiDeltas : OrderedMap UInt64 String := ∅
  deriving DecidableEq

namespace Tables

def empty : Tables := {}

instance : EmptyCollection Tables := ⟨empty⟩
instance : Inhabited Tables := ⟨empty⟩

def fileName? (t : Tables) (number : UInt32) : Option String := t.files.get? number

/-- Adds a public symbol. Address 0 is no symbol, and the first symbol at an address stays. -/
def addPublicSymbol (t : Tables) (address : UInt64) (symbol : PublicSymbol) : Tables :=
  if address = 0 then t
  else { t with publicSymbols := t.publicSymbols.insertNew address symbol }

end Tables

end Symbolication.SymbolFile
