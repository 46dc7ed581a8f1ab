import Mathlib.Data.Nat.Digits.Defs
import Symbolication.Text.Digits

/-!
Numerals: non-empty runs of digits, which write a number in positional notation. A machine word is
read from exactly those texts that are numerals of a number of its size.
-/

namespace Symbolication.Digits

/-- The text is a non-empty run of digits that writes `n` to the base `base`. -/
def Numeral (base : Nat) (digit? : Char → Option Nat) (text : List Char) (n : Nat) : Prop :=
  text ≠ [] ∧ ∃ ds : List Nat, text.map digit? = ds.map some ∧ Nat.ofDigits base ds.reverse = n

abbrev HexNumeral : List Char → Nat → Prop := Numeral 16 hexDigit?

abbrev DecimalNumeral : List Char → Nat → Prop := Numeral 10 decimalDigit?

theorem valueFrom_eq_some_iff (base : Nat) (digit? : Char → Option Nat) (acc : Nat)
    (text : List Char) (n : Nat) :
    valueFrom base digit? acc text = some n ↔
      ∃ ds : List Nat, text.map digit? = ds.map some ∧
        Nat.ofDigits base ds.reverse + base ^ ds.length * acc = n := by
  induction text generalizing acc with
  | nil => simp [valueFrom]
  | cons c text ih =>
    -- The digits so far move up one place, and the new digit takes the lowest.
    have hshift (d : Nat) (ds : List Nat) :
        Nat.ofDigits base (d :: ds).reverse + base ^ (d :: ds).length * acc =
          Nat.ofDigits base ds.reverse + base ^ ds.length * (acc * base + d) := by
      rw [List.reverse_cons, Nat.ofDigits_append, Nat.ofDigits_singleton, List.length_reverse,
        List.length_cons]
      ring
    rw [valueFrom, Option.bind_eq_some_iff]
    constructor
    · intro h
      obtain ⟨d, hd, h⟩ := h
      obtain ⟨ds, hds, hn⟩ := (ih _).mp h
      refine ⟨d :: ds, ?_, (hshift d ds).trans hn⟩
      rw [List.map_cons, List.map_cons, hd, hds]
    · intro h
      obtain ⟨ds, hds, hn⟩ := h
      cases ds with
      | nil => cases hds
      | cons d ds =>
        obtain ⟨hd, hds⟩ := List.cons.inj hds
        exact ⟨d, hd, (ih _).mpr ⟨ds, hds, (hshift d ds).symm.trans hn⟩⟩

theorem value?_eq_some_iff (base : Nat) (digit? : Char → Option Nat) (text : List Char) (n : Nat) :
    value? base digit? text = some n ↔ Numeral base digit? text n := by
  cases text with
  | nil => simp [value?, Numeral]
  | cons c text =>
    rw [value?, valueFrom_eq_some_iff, Numeral]
    · simp
    · exact List.cons_ne_nil c text

theorem word64?_eq_some_iff (n : Nat) (w : UInt64) : word64? n = some w ↔ w.toNat = n := by
  rw [word64?, Option.ite_none_right_eq_some, Option.some.injEq]
  constructor
  · intro h
    obtain ⟨hlt, rfl⟩ := h
    exact UInt64.toNat_ofNat_of_lt' hlt
  · intro h
    rw [← h]
    exact ⟨w.toNat_lt_size, UInt64.ofNat_toNat⟩

theorem word32?_eq_some_iff (n : Nat) (w : UInt32) : word32? n = some w ↔ w.toNat = n := by
  rw [word32?, Option.ite_none_right_eq_some, Option.some.injEq]
  constructor
  · intro h
    obtain ⟨hlt, rfl⟩ := h
    exact UInt32.toNat_ofNat_of_lt' hlt
  · intro h
    rw [← h]
    exact ⟨w.toNat_lt_size, UInt32.ofNat_toNat⟩

theorem hex64?_eq_some_iff (text : List Char) (w : UInt64) :
    hex64? text = some w ↔ HexNumeral text w.toNat := by
  simp only [hex64?, hex?, Option.bind_eq_some_iff, word64?_eq_some_iff, value?_eq_some_iff]
  exact exists_eq_right'

theorem hex32?_eq_some_iff (text : List Char) (w : UInt32) :
    hex32? text = some w ↔ HexNumeral text w.toNat := by
  simp only [hex32?, hex?, Option.bind_eq_some_iff, word32?_eq_some_iff, value?_eq_some_iff]
  exact exists_eq_right'

theorem decimal64?_eq_some_iff (text : List Char) (w : UInt64) :
    decimal64? text = some w ↔ DecimalNumeral text w.toNat := by
  simp only [decimal64?, decimal?, Option.bind_eq_some_iff, word64?_eq_some_iff,
    value?_eq_some_iff]
  exact exists_eq_right'

theorem decimal32?_eq_some_iff (text : List Char) (w : UInt32) :
    decimal32? text = some w ↔ DecimalNumeral text w.toNat := by
  simp only [decimal32?, decimal?, Option.bind_eq_some_iff, word32?_eq_some_iff,
    value?_eq_some_iff]
  exact exists_eq_right'

/-- Every character of a numeral is a digit. -/
theorem Numeral.isSome_digit? {base : Nat} {digit? : Char → Option Nat} {text : List Char} {n : Nat}
    (h : Numeral base digit? text n) (c : Char) (hc : c ∈ text) : (digit? c).isSome := by
  obtain ⟨-, ds, hds, -⟩ := h
  have hmem : digit? c ∈ ds.map some := by
    rw [← hds]
    exact List.mem_map_of_mem hc
  obtain ⟨d, -, hd⟩ := List.mem_map.mp hmem
  rw [← hd]
  rfl

theorem HexNumeral.all_isHexDigit {text : List Char} {n : Nat} (h : HexNumeral text n) :
    text.all isHexDigit = true :=
  List.all_eq_true.mpr fun c hc => h.isSome_digit? c hc

theorem HexNumeral.space_not_mem {text : List Char} {n : Nat} (h : HexNumeral text n) :
    ' ' ∉ text := by
  intro hmem
  have hspace : (hexDigit? ' ').isSome = true := h.isSome_digit? ' ' hmem
  revert hspace
  decide

theorem DecimalNumeral.space_not_mem {text : List Char} {n : Nat} (h : DecimalNumeral text n) :
    ' ' ∉ text := by
  intro hmem
  have hspace : (decimalDigit? ' ').isSome = true := h.isSome_digit? ' ' hmem
  revert hspace
  decide

end Symbolication.Digits
