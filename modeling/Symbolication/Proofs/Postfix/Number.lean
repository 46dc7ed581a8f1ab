import Symbolication.Postfix.Evaluator
import Symbolication.Proofs.Text.Numeral

/-!
The tokens that are numbers: a magnitude in decimal, or in hexadecimal after `0x`, with a minus sign
before it or none. One more spelling is let pass, a plus sign before the hexadecimal digits. Any other
token that starts like a number is malformed, and what is left are identifiers.
-/

namespace Symbolication.Postfix

open Digits (DecimalNumeral HexNumeral)

namespace Token

/-- The tokens that are operators. -/
def operatorTexts : List (List Char) :=
  ['='] :: ['^'] :: BinaryOp.all.map fun op => [op.symbol]

/-- The text is `n` in decimal digits, or in hexadecimal digits after `0x` or `0X`. -/
inductive Magnitude : List Char → Nat → Prop where
  | decimal (digits : List Char) (n : Nat) (h : DecimalNumeral digits n) : Magnitude digits n
  | hexadecimal (x : Char) (digits : List Char) (n : Nat) (hx : x = 'x' ∨ x = 'X')
    (h : HexNumeral digits n) : Magnitude ('0' :: x :: digits) n

/-- The text is `n` in hexadecimal digits with a plus sign between the mark and the digits. -/
inductive PlusMagnitude : List Char → Nat → Prop where
  | hexadecimal (x : Char) (digits : List Char) (n : Nat) (hx : x = 'x' ∨ x = 'X')
    (h : HexNumeral digits n) : PlusMagnitude ('0' :: x :: '+' :: digits) n

/-- The text is a magnitude that fits 64 bits, which is `v`, or a minus sign and the magnitude of
which `v` is the negation modulo `2 ^ 64`. -/
inductive Signed (magnitude : List Char → Nat → Prop) : List Char → UInt64 → Prop where
  | plain (text : List Char) (v : UInt64) (h : magnitude text v.toNat) : Signed magnitude text v
  | negated (text : List Char) (v : UInt64) (h : magnitude text v.toNat) :
    Signed magnitude ('-' :: text) (-v)

/-- The text starts with a decimal digit, or with a minus sign that has something after it. -/
def StartsLikeNumber (text : List Char) : Prop :=
  ∃ c rest, text = c :: rest ∧ (Digits.isDecimalDigit c = true ∨ c = '-' ∧ rest ≠ [])

theorem ofText_eq_ofOperand (text : List Char) (h : text ∉ operatorTexts) :
    ofText text = ofOperand text := by
  unfold ofText
  split
  · exact absurd List.mem_cons_self h
  · exact absurd (List.mem_cons_of_mem _ List.mem_cons_self) h
  · rename_i c _ _
    cases hop : BinaryOp.ofSymbol? c with
    | none => rfl
    | some op =>
      -- The symbol of an operator is one of the operators.
      have hmem : op ∈ BinaryOp.all := List.mem_of_find?_eq_some hop
      have hsymbol : op.symbol = c := beq_iff_eq.mp (List.find?_some (p := fun op : BinaryOp => op.symbol == c) hop)
      have htext : [c] ∈ BinaryOp.all.map fun op => [op.symbol] :=
        List.mem_map.mpr ⟨op, hmem, by rw [hsymbol]⟩
      exact absurd (List.mem_cons_of_mem _ (List.mem_cons_of_mem _ htext)) h
  · rfl

theorem hexMagnitude?_eq_some_iff (text : List Char) (v : UInt64) :
    hexMagnitude? text = some v ↔
      HexNumeral text v.toNat ∨ ∃ digits, text = '+' :: digits ∧ HexNumeral digits v.toNat := by
  unfold hexMagnitude?
  split
  · rename_i digits
    -- The sign itself is no digit.
    have hsign : ¬ HexNumeral ('+' :: digits) v.toNat := by
      intro h
      have hdigit : (Digits.hexDigit? '+').isSome = true := h.isSome_digit? '+' List.mem_cons_self
      revert hdigit
      decide
    rw [Digits.hex64?_eq_some_iff]
    constructor
    · intro h
      exact Or.inr ⟨digits, rfl, h⟩
    · rintro (h | ⟨rest, hrest, h⟩)
      · exact absurd h hsign
      · rw [(List.cons.inj hrest).2]
        exact h
  · rename_i hplain
    rw [Digits.hex64?_eq_some_iff]
    constructor
    · exact Or.inl
    · rintro (h | ⟨digits, hdigits, -⟩)
      · exact h
      · exact absurd hdigits (hplain digits)

theorem magnitude?_marked (x : Char) (hx : x = 'x' ∨ x = 'X') (text : List Char) :
    magnitude? ('0' :: x :: text) = hexMagnitude? text := by
  rcases hx with rfl | rfl <;> rfl

/-- No decimal numeral starts with the mark of a hexadecimal one. -/
theorem not_decimalNumeral_marked (x : Char) (hx : x = 'x' ∨ x = 'X') (text : List Char) (n : Nat) :
    ¬ DecimalNumeral ('0' :: x :: text) n := by
  intro h
  have hdigit : (Digits.decimalDigit? x).isSome = true :=
    h.isSome_digit? x (List.mem_cons_of_mem _ List.mem_cons_self)
  rcases hx with rfl | rfl <;> exact absurd hdigit (by decide)

theorem magnitude?_unmarked (text : List Char)
    (h : ∀ x rest, x = 'x' ∨ x = 'X' → text ≠ '0' :: x :: rest) :
    magnitude? text = Digits.decimal64? text := by
  unfold magnitude?
  split
  · rename_i rest
    exact absurd rfl (h 'x' rest (Or.inl rfl))
  · rename_i rest
    exact absurd rfl (h 'X' rest (Or.inr rfl))
  · rfl

theorem magnitude?_eq_some_iff (text : List Char) (v : UInt64) :
    magnitude? text = some v ↔ Magnitude text v.toNat ∨ PlusMagnitude text v.toNat := by
  by_cases hmarked : ∃ x rest, (x = 'x' ∨ x = 'X') ∧ text = '0' :: x :: rest
  · obtain ⟨x, rest, hx, rfl⟩ := hmarked
    rw [magnitude?_marked x hx, hexMagnitude?_eq_some_iff]
    constructor
    · rintro (h | ⟨digits, rfl, h⟩)
      · exact Or.inl (.hexadecimal x rest _ hx h)
      · exact Or.inr (.hexadecimal x digits _ hx h)
    · rintro (h | h)
      · cases h with
        | decimal _ _ h => exact absurd h (not_decimalNumeral_marked x hx rest _)
        | hexadecimal _ _ _ _ h => exact Or.inl h
      · cases h with
        | hexadecimal _ digits _ _ h => exact Or.inr ⟨digits, rfl, h⟩
  · have hplain (x : Char) (rest : List Char) (hx : x = 'x' ∨ x = 'X') : text ≠ '0' :: x :: rest :=
      fun htext => hmarked ⟨x, rest, hx, htext⟩
    rw [magnitude?_unmarked text hplain, Digits.decimal64?_eq_some_iff]
    constructor
    · exact fun h => Or.inl (.decimal text _ h)
    · rintro (h | h)
      · cases h with
        | decimal _ _ h => exact h
        | hexadecimal x digits _ hx _ => exact absurd rfl (hplain x digits hx)
      · cases h with
        | hexadecimal x digits _ hx _ => exact absurd rfl (hplain x ('+' :: digits) hx)

theorem Magnitude.starts_with_digit {text : List Char} {n : Nat} (h : Magnitude text n) :
    ∃ c rest, text = c :: rest ∧ Digits.isDecimalDigit c = true := by
  cases h with
  | decimal _ _ h =>
    obtain ⟨c, rest, rfl⟩ := List.exists_cons_of_ne_nil h.1
    exact ⟨c, rest, rfl, h.isSome_digit? c List.mem_cons_self⟩
  | hexadecimal x digits _ _ _ => exact ⟨'0', x :: digits, rfl, by decide⟩

theorem PlusMagnitude.starts_with_digit {text : List Char} {n : Nat} (h : PlusMagnitude text n) :
    ∃ c rest, text = c :: rest ∧ Digits.isDecimalDigit c = true := by
  cases h with
  | hexadecimal x digits _ _ _ => exact ⟨'0', x :: '+' :: digits, rfl, by decide⟩

section Signed

variable {magnitude : List Char → Nat → Prop}
variable (hmagnitude : ∀ text n, magnitude text n →
  ∃ c rest, text = c :: rest ∧ Digits.isDecimalDigit c = true)

include hmagnitude

/-- After a minus sign the text is a magnitude that is negated. -/
theorem signed_negated_iff (text : List Char) (v : UInt64) :
    Signed magnitude ('-' :: text) v ↔ ∃ w : UInt64, magnitude text w.toNat ∧ -w = v := by
  constructor
  · intro h
    cases h with
    | plain _ _ h =>
      -- A magnitude starts with a digit, and the sign is none.
      obtain ⟨c, rest, hsplit, hdigit⟩ := hmagnitude _ _ h
      rw [← (List.cons.inj hsplit).1] at hdigit
      exact absurd hdigit (by decide)
    | negated _ w h => exact ⟨w, h, rfl⟩
  · rintro ⟨w, h, rfl⟩
    exact .negated text w h

/-- Without one it is a magnitude. -/
theorem signed_plain_iff (text : List Char) (h : ∀ c rest, text ≠ '-' :: c :: rest) (v : UInt64) :
    Signed magnitude text v ↔ magnitude text v.toNat := by
  constructor
  · intro hsigned
    cases hsigned with
    | plain _ _ hplain => exact hplain
    | negated rest w hrest =>
      obtain ⟨c, cs, rfl, -⟩ := hmagnitude _ _ hrest
      exact absurd rfl (h c cs)
  · exact .plain text v

end Signed

/-- The text is a number as documented, or one with a plus sign in it. -/
def ReadsAs (text : List Char) (v : UInt64) : Prop :=
  Signed Magnitude text v ∨ Signed PlusMagnitude text v

theorem readsAs_negated_iff (text : List Char) (v : UInt64) :
    ReadsAs ('-' :: text) v ↔ ∃ w, magnitude? text = some w ∧ -w = v := by
  rw [ReadsAs, signed_negated_iff fun _ _ => Magnitude.starts_with_digit,
    signed_negated_iff fun _ _ => PlusMagnitude.starts_with_digit]
  simp only [magnitude?_eq_some_iff, or_and_right, exists_or]

theorem readsAs_plain_iff (text : List Char) (h : ∀ c rest, text ≠ '-' :: c :: rest) (v : UInt64) :
    ReadsAs text v ↔ magnitude? text = some v := by
  rw [ReadsAs, signed_plain_iff (fun _ _ => Magnitude.starts_with_digit) text h,
    signed_plain_iff (fun _ _ => PlusMagnitude.starts_with_digit) text h, magnitude?_eq_some_iff]

theorem startsLikeNumber_plain_iff (text : List Char) (h : ∀ c rest, text ≠ '-' :: c :: rest) :
    StartsLikeNumber text ↔ text.head?.any Digits.isDecimalDigit = true := by
  constructor
  · rintro ⟨c, rest, rfl, hdigit | ⟨rfl, hrest⟩⟩
    · exact hdigit
    · obtain ⟨d, ds, rfl⟩ := List.exists_cons_of_ne_nil hrest
      exact absurd rfl (h d ds)
  · intro hany
    cases text with
    | nil => cases hany
    | cons c rest => exact ⟨c, rest, rfl, Or.inl hany⟩

theorem ofOperand_negated (c : Char) (cs : List Char) :
    ofOperand ('-' :: c :: cs) =
      (magnitude? (c :: cs)).elim (.malformed (String.ofList ('-' :: c :: cs)))
        fun w => .number (-w) := by
  have hsign : splitSign ('-' :: c :: cs) = (true, c :: cs) := rfl
  unfold ofOperand
  rw [hsign]
  dsimp only
  cases magnitude? (c :: cs) <;> simp

theorem ofOperand_plain (text : List Char) (h : ∀ c rest, text ≠ '-' :: c :: rest) :
    ofOperand text =
      (magnitude? text).elim
        (if text.head?.any Digits.isDecimalDigit then .malformed (String.ofList text)
          else .identifier (String.ofList text)) .number := by
  have hsign : splitSign text = (false, text) := by
    unfold splitSign
    split
    · rename_i c cs
      exact absurd rfl (h c cs)
    · rfl
  unfold ofOperand
  rw [hsign]
  dsimp only
  cases magnitude? text <;> simp

/-- A token that is no operator is read as a number if it is one; else how it starts decides. -/
theorem ofOperand_cases (text : List Char) :
    (∃ v, (∀ w, ReadsAs text w ↔ w = v) ∧ ofOperand text = .number v) ∨
    (∀ v, ¬ ReadsAs text v) ∧ StartsLikeNumber text ∧
      ofOperand text = .malformed (String.ofList text) ∨
    (∀ v, ¬ ReadsAs text v) ∧ ¬ StartsLikeNumber text ∧
      ofOperand text = .identifier (String.ofList text) := by
  by_cases hsign : ∃ c rest, text = '-' :: c :: rest
  · obtain ⟨c, cs, rfl⟩ := hsign
    have hstarts : StartsLikeNumber ('-' :: c :: cs) :=
      ⟨'-', c :: cs, rfl, Or.inr ⟨rfl, List.cons_ne_nil c cs⟩⟩
    simp only [readsAs_negated_iff, ofOperand_negated]
    cases magnitude? (c :: cs) with
    | some w => exact Or.inl ⟨-w, by simp [eq_comm], rfl⟩
    | none => exact Or.inr (Or.inl ⟨by simp, hstarts, rfl⟩)
  · have hplain (c : Char) (rest : List Char) : text ≠ '-' :: c :: rest :=
      fun htext => hsign ⟨c, rest, htext⟩
    simp only [readsAs_plain_iff text hplain, ofOperand_plain text hplain,
      startsLikeNumber_plain_iff text hplain]
    cases magnitude? text with
    | some w => exact Or.inl ⟨w, by simp [eq_comm], rfl⟩
    | none =>
      refine Or.inr ?_
      cases text.head?.any Digits.isDecimalDigit with
      | true => exact Or.inl ⟨nofun, rfl, rfl⟩
      | false => exact Or.inr ⟨nofun, Bool.false_ne_true, rfl⟩

end Token

open Token (operatorTexts ReadsAs StartsLikeNumber Signed Magnitude)

/-- What the evaluator makes of a token that is no operator. It pushes a number exactly if the token is
a number as documented, or one with a plus sign before its hexadecimal digits. It refuses any other
token that starts like a number, and pushes what is left as an identifier. -/
theorem number_malformed_or_identifier (e : Evaluator) (registers : Registers)
    (stack : List Operand) (text : List Char) (htext : text ∉ operatorTexts) :
    let outcome := e.step registers stack (Token.ofText text)
    (∀ v, outcome = .ok (.value v :: stack) ↔ ReadsAs text v) ∧
    ((∀ v, ¬ ReadsAs text v) →
      (StartsLikeNumber text → outcome = .error (.invalidToken (String.ofList text))) ∧
      (¬ StartsLikeNumber text → outcome = .ok (.identifier (String.ofList text) :: stack))) := by
  intro outcome
  have houtcome : outcome = e.step registers stack (Token.ofOperand text) := by
    rw [← Token.ofText_eq_ofOperand text htext]
  have hvalue (v w : UInt64) : (Except.ok (Operand.value v :: stack) : Except EvalError _) =
      .ok (.value w :: stack) ↔ w = v := by simp [eq_comm]
  rw [houtcome]
  rcases Token.ofOperand_cases text with ⟨v, hv, hread⟩ | ⟨hnone, hstarts, hread⟩ | ⟨hnone, hother, hread⟩
  · rw [hread]
    refine ⟨fun w => (hvalue v w).trans (hv w).symm, ?_⟩
    intro hnone
    exact absurd ((hv v).mpr rfl) (hnone v)
  · rw [hread]
    refine ⟨fun w => iff_of_false nofun (hnone w), ?_⟩
    intro _
    exact ⟨fun _ => rfl, fun hother => absurd hstarts hother⟩
  · have hidentifier (w : UInt64) :
        (Except.ok (Operand.identifier (String.ofList text) :: stack) : Except EvalError _) ≠
          .ok (.value w :: stack) := by simp
    rw [hread]
    refine ⟨fun w => iff_of_false (hidentifier w) (hnone w), ?_⟩
    intro _
    exact ⟨fun hstarts => absurd hstarts hother, fun _ => rfl⟩

/-- A negated hexadecimal number, and a token that starts like a number and is none. -/
theorem step_negated_number_and_malformed :
    let e : Evaluator := { memory := .none }
    "-0XfF".toList ∉ operatorTexts ∧ "12abc".toList ∉ operatorTexts ∧
    e.step ∅ [] (Token.ofText "-0XfF".toList) = .ok [.value 0xFFFFFFFFFFFFFF01] ∧
    e.step ∅ [] (Token.ofText "12abc".toList) = .error (.invalidToken "12abc") := by
  intro e
  have hdigits : HexNumeral ['f', 'F'] (0xFF : UInt64).toNat :=
    ⟨List.cons_ne_nil _ _, [15, 15], by decide, by decide⟩
  have hnumber : ReadsAs "-0XfF".toList 0xFFFFFFFFFFFFFF01 :=
    Or.inl (.negated _ 0xFF (.hexadecimal 'X' _ _ (Or.inr rfl) hdigits))
  have hnone (v : UInt64) : ¬ ReadsAs "12abc".toList v := by
    rw [Token.readsAs_plain_iff _ (by simp)]
    have hread : Token.magnitude? "12abc".toList = none := by decide
    rw [hread]
    exact nofun
  obtain ⟨hpushed, -⟩ := number_malformed_or_identifier e ∅ [] "-0XfF".toList (by decide)
  obtain ⟨-, hrefused⟩ := number_malformed_or_identifier e ∅ [] "12abc".toList (by decide)
  refine ⟨by decide, by decide, (hpushed _).mpr hnumber, ?_⟩
  exact (hrefused hnone).1 ⟨'1', "2abc".toList, rfl, Or.inl (by decide)⟩

/-- A token that starts with a digit and is no number as documented, and yet is pushed as one. -/
theorem step_pushes_plus_magnitude :
    let e : Evaluator := { memory := .none }
    "0x+1f".toList ∉ operatorTexts ∧ StartsLikeNumber "0x+1f".toList ∧
    (∀ v, ¬ Signed Magnitude "0x+1f".toList v) ∧
    e.step ∅ [] (Token.ofText "0x+1f".toList) = .ok [.value 31] := by
  intro e
  refine ⟨by decide, ⟨'0', "x+1f".toList, rfl, Or.inl (by decide)⟩, ?_, by rfl⟩
  intro v hv
  rw [Token.signed_plain_iff (fun _ _ => Magnitude.starts_with_digit) _ (by simp)] at hv
  cases hv with
  | decimal _ _ h => exact Token.not_decimalNumeral_marked 'x' (Or.inl rfl) _ _ h
  | hexadecimal _ _ _ _ h =>
    have hsign : (Digits.hexDigit? '+').isSome = true := h.isSome_digit? '+' List.mem_cons_self
    exact absurd hsign (by decide)

end Symbolication.Postfix
