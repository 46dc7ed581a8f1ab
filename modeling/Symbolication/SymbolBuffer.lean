/-!
Symbol data in memory. A buffer's bytes are followed by a nul byte that is not part of its content,
so a reader of text stops at the end of the content at the latest.
-/

namespace Symbolication

/-- Symbol data, without the nul byte that follows it. -/
structure SymbolBuffer where
  content : List UInt8
  deriving DecidableEq, Repr, Inhabited

namespace SymbolBuffer

def ofText (s : String) : SymbolBuffer := ⟨s.toUTF8.toList⟩

def size (b : SymbolBuffer) : Nat := b.content.length

def isEmpty (b : SymbolBuffer) : Bool := b.content.isEmpty

def withNul (b : SymbolBuffer) : List UInt8 := b.content ++ [0]

/-- What a reader of nul-terminated text sees: the bytes before the first nul. -/
def text (b : SymbolBuffer) : List UInt8 := b.withNul.takeWhile (· != 0)

/-- The buffer with one byte of its content replaced; the nul byte at the end is out of reach. -/
def set (b : SymbolBuffer) (index : Nat) (byte : UInt8) : SymbolBuffer :=
  ⟨b.content.set index byte⟩

def map (f : UInt8 → UInt8) (b : SymbolBuffer) : SymbolBuffer := ⟨b.content.map f⟩

/-- A buffer is shown by its size. -/
def describe (b : SymbolBuffer) : String :=
  "SymbolBuffer \x7b len: " ++ toString b.size ++ " \x7d"

end SymbolBuffer

end Symbolication
