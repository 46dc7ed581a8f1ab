import Symbolication.Text.Digits

/-!
Lines of text and the fields of a line. A line's fields are separated by single spaces, so two
spaces in a row enclose an empty field, and the last field may be taken with its spaces.
-/

namespace Symbolication.Text

/-- Cuts `cs` at the first `sep`; the second part is absent when there is no `sep`. -/
def splitAt? (sep : Char) : List Char → List Char × Option (List Char)
  | [] => ([], none)
  | c :: cs =>
    if c = sep then ([], some cs)
    else
      let (front, back) := splitAt? sep cs
      (c :: front, back)

theorem length_splitAt? {sep : Char} {cs front back : List Char}
    (h : splitAt? sep cs = (front, some back)) : front.length + back.length + 1 = cs.length := by
  induction cs generalizing front with
  | nil => simp [splitAt?] at h
  | cons c cs ih =>
    rw [splitAt?] at h
    split at h
    · cases h
      simp
    · obtain ⟨hfront, hback⟩ := Prod.mk.inj h
      have heq : splitAt? sep cs = ((splitAt? sep cs).1, some back) := Prod.ext rfl hback
      have := ih heq
      simp only [← hfront, List.length_cons]
      omega

/-- The pieces of `cs` between the occurrences of `sep`; there is always at least one. -/
def pieces (sep : Char) : List Char → List (List Char)
  | [] => [[]]
  | c :: cs =>
    if c = sep then [] :: pieces sep cs
    else
      match pieces sep cs with
      | [] => [[c]]
      | p :: ps => (c :: p) :: ps

/-- A line without the carriage returns at its end. -/
def trimReturns (line : List Char) : List Char :=
  (line.reverse.dropWhile (· == '\r')).reverse

/-- The lines of a text, each without the carriage returns at its end. -/
def lines (text : List Char) : List (List Char) := (pieces '\n' text).map trimReturns

/-- Reads from what is left of a line: `none` once the last field has been taken. -/
abbrev FieldReader := StateT (Option (List Char)) Option

namespace FieldReader

/-- The next field, up to a space or the end of the line. -/
def field : FieldReader (List Char) := fun rest? =>
  rest?.map (splitAt? ' ')

/-- Everything that is left, spaces included; there must be a space before it. -/
def remainder : FieldReader (List Char) := fun rest? =>
  rest?.map fun rest => (rest, none)

/-- Everything that is left, which must not be empty. -/
def nonemptyRemainder : FieldReader (List Char) := do
  let rest ← remainder
  if rest.isEmpty then failure else return rest

def noMore : FieldReader Unit := fun rest? =>
  if rest?.isNone then some ((), none) else none

/-- Drops `word` and the space after it if the line goes on with them. -/
def skipWord (word : List Char) : FieldReader Unit := fun rest? =>
  some ((), rest?.map fun rest => ((word ++ [' ']).isPrefixOf? rest).getD rest)

def hex64 : FieldReader UInt64 := do Digits.hex64? (← field)

def hex32 : FieldReader UInt32 := do Digits.hex32? (← field)

def decimal32 : FieldReader UInt32 := do Digits.decimal32? (← field)

/-- The reader's answer on a whole line. -/
def read? {α : Type} (reader : FieldReader α) (line : List Char) : Option α :=
  (reader.run (some line)).map Prod.fst

end FieldReader

end Symbolication.Text
