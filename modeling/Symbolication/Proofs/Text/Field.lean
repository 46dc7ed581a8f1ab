import Symbolication.Proofs.Text.Numeral
import Symbolication.Proofs.Text.Token
import Symbolication.Text.Field

/-!
Readers of fields by the lines that they accept. A reader that takes a field and goes on accepts a line
if the line is that field, a space, and a line that the rest accepts; the field holds no space. So a
record of several fields accepts exactly the lines that join fields of the right kinds by single
spaces.
-/

namespace Symbolication.Text

theorem splitAt?_eq_some_iff (sep : Char) (cs front back : List Char) :
    splitAt? sep cs = (front, some back) ↔ cs = front ++ sep :: back ∧ sep ∉ front := by
  induction cs generalizing front with
  | nil => simp [splitAt?]
  | cons c cs ih =>
    rw [splitAt?]
    split
    · rename_i hc
      subst hc
      cases front with
      | nil => simp [eq_comm]
      | cons d front => simp_all
    · rename_i hc
      cases front with
      | nil => simp [hc]
      | cons d front =>
        have hsplit : splitAt? sep cs = (front, some back) ↔
            (splitAt? sep cs).1 = front ∧ (splitAt? sep cs).2 = some back := Prod.ext_iff
        rw [Prod.mk.injEq, List.cons.injEq, and_assoc, ← hsplit, ih, List.cons_append,
          List.cons.injEq, List.mem_cons, not_or]
        constructor
        · rintro ⟨rfl, hcs, hfront⟩
          exact ⟨⟨rfl, hcs⟩, Ne.symm hc, hfront⟩
        · rintro ⟨⟨rfl, hcs⟩, -, hfront⟩
          exact ⟨rfl, hcs, hfront⟩

theorem splitAt?_eq_none_iff (sep : Char) (cs front : List Char) :
    splitAt? sep cs = (front, none) ↔ cs = front ∧ sep ∉ cs := by
  induction cs generalizing front with
  | nil => simp [splitAt?, eq_comm]
  | cons c cs ih =>
    rw [splitAt?]
    split
    · rename_i hc
      simp [hc]
    · rename_i hc
      cases front with
      | nil => simp
      | cons d front =>
        have hsplit : splitAt? sep cs = (front, none) ↔
            (splitAt? sep cs).1 = front ∧ (splitAt? sep cs).2 = none := Prod.ext_iff
        rw [Prod.mk.injEq, List.cons.injEq, and_assoc, ← hsplit, ih, List.cons.injEq, and_assoc,
          List.mem_cons, not_or]
        constructor
        · rintro ⟨rfl, rfl, hcs⟩
          exact ⟨rfl, rfl, Ne.symm hc, hcs⟩
        · rintro ⟨rfl, rfl, -, hcs⟩
          exact ⟨rfl, rfl, hcs⟩

theorem splitAt?_append_cons (sep : Char) (front back : List Char) (h : sep ∉ front) :
    splitAt? sep (front ++ sep :: back) = (front, some back) :=
  (splitAt?_eq_some_iff sep _ front back).mpr ⟨rfl, h⟩

namespace FieldReader

open Digits (HexNumeral DecimalNumeral)

variable {α β : Type}

/-- The reader needs something to read. -/
def Needs (reader : FieldReader α) : Prop := reader none = none

theorem Needs.bind {reader : FieldReader α} (h : reader.Needs) (f : α → FieldReader β) :
    (reader >>= f).Needs := by
  have hbind : (reader >>= f) none = (reader none).bind fun p => f p.1 p.2 := rfl
  rw [Needs, hbind, h]
  rfl

theorem needs_field : field.Needs := rfl

theorem needs_hex64 : hex64.Needs := rfl

theorem needs_hex32 : hex32.Needs := rfl

theorem needs_decimal32 : decimal32.Needs := rfl

theorem needs_remainder : remainder.Needs := rfl

theorem needs_nonemptyRemainder : nonemptyRemainder.Needs := rfl

theorem read?_field_bind_eq (f : List Char → FieldReader β) (line : List Char) :
    read? (field >>= f) line =
      (f (splitAt? ' ' line).1 (splitAt? ' ' line).2).map Prod.fst := rfl

theorem read?_field_bind (f : List Char → FieldReader β) (hf : ∀ w, (f w).Needs)
    (line : List Char) (b : β) :
    read? (field >>= f) line = some b ↔
      ∃ w rest, line = w ++ ' ' :: rest ∧ ' ' ∉ w ∧ read? (f w) rest = some b := by
  obtain ⟨w, rest?, hsplit⟩ : ∃ w rest?, splitAt? ' ' line = (w, rest?) := ⟨_, _, rfl⟩
  rw [read?_field_bind_eq, hsplit]
  cases rest? with
  | none =>
    -- The line is a single field, and nothing is left for the rest of the reader.
    obtain ⟨-, hline⟩ := (splitAt?_eq_none_iff ' ' line w).mp hsplit
    have hnone : f w none = none := hf w
    simp only [hnone, Option.map_none]
    constructor
    · intro h
      cases h
    · rintro ⟨w', rest, rfl, -, -⟩
      simp at hline
  | some rest =>
    have hline := (splitAt?_eq_some_iff ' ' line w rest).mp hsplit
    constructor
    · intro h
      exact ⟨w, rest, hline.1, hline.2, h⟩
    · rintro ⟨w', rest', hline', hw', h⟩
      have heq := (splitAt?_eq_some_iff ' ' line w' rest').mpr ⟨hline', hw'⟩
      rw [hsplit] at heq
      cases heq
      exact h

/-- A reader of one word that reads nothing with a space in it. -/
theorem read?_word_bind (reader : FieldReader α) (word? : List Char → Option α)
    (hreader : reader = field >>= fun w => liftM (word? w))
    (hspace : ∀ w a, word? w = some a → ' ' ∉ w) (f : α → FieldReader β) (hf : ∀ a, (f a).Needs)
    (line : List Char) (b : β) :
    read? (reader >>= f) line = some b ↔
      ∃ w a rest, line = w ++ ' ' :: rest ∧ word? w = some a ∧ read? (f a) rest = some b := by
  have hneeds (w : List Char) : ((liftM (word? w) : FieldReader α) >>= f).Needs := by
    unfold Needs
    cases hw : word? w with
    | none => rfl
    | some a => exact hf a
  have hlift (w rest : List Char) : read? ((liftM (word? w) : FieldReader α) >>= f) rest = some b ↔
      ∃ a, word? w = some a ∧ read? (f a) rest = some b := by
    cases hw : word? w with
    | none =>
      constructor
      · intro h
        cases h
      · rintro ⟨a, ha, -⟩
        cases ha
    | some a =>
      constructor
      · intro h
        exact ⟨a, rfl, h⟩
      · rintro ⟨a', ha, h⟩
        cases ha
        exact h
  rw [hreader, bind_assoc, read?_field_bind _ hneeds]
  simp only [hlift]
  constructor
  · rintro ⟨w, rest, hline, -, a, ha, h⟩
    exact ⟨w, a, rest, hline, ha, h⟩
  · rintro ⟨w, a, rest, hline, ha, h⟩
    exact ⟨w, rest, hline, hspace w a ha, a, ha, h⟩

theorem read?_hex64_bind (f : UInt64 → FieldReader β) (hf : ∀ n, (f n).Needs) (line : List Char)
    (b : β) :
    read? (hex64 >>= f) line = some b ↔
      ∃ w n rest, line = w ++ ' ' :: rest ∧ HexNumeral w n.toNat ∧ read? (f n) rest = some b := by
  simp only [← Digits.hex64?_eq_some_iff]
  refine read?_word_bind hex64 Digits.hex64? rfl ?_ f hf line b
  intro w n h
  exact ((Digits.hex64?_eq_some_iff w n).mp h).space_not_mem

theorem read?_hex32_bind (f : UInt32 → FieldReader β) (hf : ∀ n, (f n).Needs) (line : List Char)
    (b : β) :
    read? (hex32 >>= f) line = some b ↔
      ∃ w n rest, line = w ++ ' ' :: rest ∧ HexNumeral w n.toNat ∧ read? (f n) rest = some b := by
  simp only [← Digits.hex32?_eq_some_iff]
  refine read?_word_bind hex32 Digits.hex32? rfl ?_ f hf line b
  intro w n h
  exact ((Digits.hex32?_eq_some_iff w n).mp h).space_not_mem

theorem read?_decimal32_bind (f : UInt32 → FieldReader β) (hf : ∀ n, (f n).Needs)
    (line : List Char) (b : β) :
    read? (decimal32 >>= f) line = some b ↔
      ∃ w n rest, line = w ++ ' ' :: rest ∧ DecimalNumeral w n.toNat ∧
        read? (f n) rest = some b := by
  simp only [← Digits.decimal32?_eq_some_iff]
  refine read?_word_bind decimal32 Digits.decimal32? rfl ?_ f hf line b
  intro w n h
  exact ((Digits.decimal32?_eq_some_iff w n).mp h).space_not_mem

/-- A number that ends the line. -/
theorem read?_decimal32_noMore (g : UInt32 → β) (line : List Char) (b : β) :
    read? (decimal32 >>= fun n => noMore >>= fun _ => pure (g n)) line = some b ↔
      ∃ n, DecimalNumeral line n.toNat ∧ g n = b := by
  have hassoc : (decimal32 >>= fun n => noMore >>= fun _ => pure (g n)) =
      field >>= fun w => (liftM (Digits.decimal32? w) : FieldReader UInt32) >>= fun n =>
        noMore >>= fun _ => pure (g n) := bind_assoc _ _ _
  have hlast (w : List Char) (rest? : Option (List Char)) :
      (((liftM (Digits.decimal32? w) : FieldReader UInt32) >>= fun n =>
        noMore >>= fun _ => pure (g n)) rest?).map Prod.fst =
          if rest?.isNone then (Digits.decimal32? w).map g else none := by
    cases Digits.decimal32? w <;> cases rest? <;> rfl
  obtain ⟨w, rest?, hsplit⟩ : ∃ w rest?, splitAt? ' ' line = (w, rest?) := ⟨_, _, rfl⟩
  simp only [← Digits.decimal32?_eq_some_iff]
  rw [hassoc, read?_field_bind_eq, hlast, hsplit]
  cases rest? with
  | none =>
    obtain ⟨rfl, -⟩ := (splitAt?_eq_none_iff ' ' line w).mp hsplit
    exact Option.map_eq_some_iff
  | some rest =>
    -- A number that is the whole line has no space in it.
    obtain ⟨hline, -⟩ := (splitAt?_eq_some_iff ' ' line w rest).mp hsplit
    constructor
    · intro h
      cases h
    · rintro ⟨n, hn, -⟩
      have hspace := ((Digits.decimal32?_eq_some_iff line n).mp hn).space_not_mem
      rw [hline] at hspace
      simp at hspace

theorem read?_remainder (g : List Char → β) (line : List Char) (b : β) :
    read? (remainder >>= fun rest => pure (g rest)) line = some b ↔ g line = b := by
  have hread : read? (remainder >>= fun rest => pure (g rest)) line = some (g line) := rfl
  rw [hread, Option.some.injEq]

theorem read?_nonemptyRemainder (g : List Char → β) (line : List Char) (b : β) :
    read? (nonemptyRemainder >>= fun rest => pure (g rest)) line = some b ↔
      line ≠ [] ∧ g line = b := by
  cases line with
  | nil =>
    constructor
    · intro h
      cases h
    · rintro ⟨h, -⟩
      exact absurd rfl h
  | cons c cs =>
    have hread : read? (nonemptyRemainder >>= fun rest => pure (g rest)) (c :: cs) =
        some (g (c :: cs)) := rfl
    rw [hread, Option.some.injEq]
    exact (and_iff_right (List.cons_ne_nil c cs)).symm

theorem read?_skipWord_bind (word : List Char) (reader : FieldReader β) (line : List Char) :
    read? (skipWord word >>= fun _ => reader) line =
      read? reader (((word ++ [' ']).isPrefixOf? line).getD line) := rfl

end FieldReader

end Symbolication.Text
