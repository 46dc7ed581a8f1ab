/-!
The text of a readable name while it grows. It grows by pieces, each written whole or not at all, and
a text that has no room for its next piece is cut off there, with a mark at its end.
-/

namespace Symbolication.Demangling

/-- A readable name may have this many bytes, the mark of one that is cut off apart. -/
def maxBytes : Nat := 1000000

/-- The pieces written so far, last first, and how many more bytes they may get. -/
structure Page where
  pieces : List String := []
  room : Nat := maxBytes
  deriving DecidableEq, Repr

namespace Page

def write? (p : Page) (piece : String) : Option Page :=
  if piece.utf8ByteSize ≤ p.room then
    some ⟨piece :: p.pieces, p.room - piece.utf8ByteSize⟩
  else none

def text (p : Page) : String := String.join p.pieces.reverse

/-- The text when there was no room for its next piece. -/
def cutText (p : Page) : String := p.text ++ "\x7bsize limit reached\x7d"

/-- The text of a page after more pieces. -/
def textWith (p : Page) : List String → String
  | [] => p.text
  | piece :: rest =>
    match p.write? piece with
    | some p => p.textWith rest
    | none => p.cutText

end Page

end Symbolication.Demangling
