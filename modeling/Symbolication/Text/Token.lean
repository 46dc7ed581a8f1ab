/-!
Texts as sequences of tokens: maximal runs of characters other than ASCII white space.
-/

namespace Symbolication.Text

def isBlank (c : Char) : Bool :=
  c == ' ' || c == '\t' || c == '\n' || c == '\x0c' || c == '\r'

/-- The tokens of a text, when `current` holds the characters of the token being read, last first. -/
def tokensFrom (current : List Char) : List Char → List (List Char)
  | [] => if current.isEmpty then [] else [current.reverse]
  | c :: cs =>
    if isBlank c then
      if current.isEmpty then tokensFrom [] cs else current.reverse :: tokensFrom [] cs
    else tokensFrom (c :: current) cs

/-- The maximal runs of characters that are not blank. -/
def tokens (cs : List Char) : List (List Char) := tokensFrom [] cs

/-- The tokens with one space between neighbours. -/
def joinTokens : List (List Char) → List Char
  | [] => []
  | [t] => t
  | t :: ts => t ++ ' ' :: joinTokens ts

end Symbolication.Text
