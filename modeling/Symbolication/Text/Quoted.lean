import Symbolication.Text.CharClass
import Symbolication.Text.Digits

/-!
Text inside quotes. The closing quote and the backslash are escaped, so the end of a quoted text is
where its first unescaped quote stands; characters that cannot be seen, or that would be drawn on
their neighbour, are written by their code point.
-/

namespace Symbolication.Quoted

/-- A character by its code point: `\u`, then the hexadecimal number in braces. -/
def codePoint (c : Char) : String :=
  "\\u\x7b" ++ Digits.hexDigits c.toNat ++ "\x7d"

/-- How `c` is written between two characters `quote`. -/
def escape (quote c : Char) : String :=
  if c = '\x00' then "\\0"
  else if c = '\t' then "\\t"
  else if c = '\r' then "\\r"
  else if c = '\n' then "\\n"
  else if c = quote || c = '\\' then String.ofList ['\\', c]
  else if CharClass.extendsGrapheme c || !CharClass.isPrintable c then codePoint c
  else c.toString

def text (s : String) : String :=
  "\"" ++ String.join (s.toList.map (escape '"')) ++ "\""

end Symbolication.Quoted
