import Mathlib.Algebra.Group.Nat.Defs
import Mathlib.Data.List.TakeWhile
import Symbolication.SymbolBuffer
import Symbolication.Text.Field
import Symbolication.Text.Utf8

/-!
The lines of decoded text. A newline is a byte of its own: no character of several bytes has it inside,
and an ill-formed stretch ends before it. So the lines of a text are the lines of its bytes, decoded
one by one, and the first lines of a text can be loaded by themselves.
-/

namespace Symbolication

namespace Text

/-- The pieces of a text are what it splits into. -/
theorem pieces_eq_splitOn (sep : Char) (cs : List Char) : pieces sep cs = cs.splitOn sep := by
  induction cs with
  | nil => rfl
  | cons c cs ih =>
    rw [pieces, List.splitOn_cons_eq_if_modifyHead, ih]
    by_cases hc : c = sep
    · rw [if_pos hc, if_pos (beq_iff_eq.mpr hc)]
    · have hbeq : ¬ (c == sep) = true := fun h => hc (beq_iff_eq.mp h)
      rw [if_neg hc, if_neg hbeq]
      cases hpieces : cs.splitOn sep with
      | nil => exact absurd hpieces (List.splitOn_ne_nil sep cs)
      | cons p ps => rfl

/-- No piece holds what the list is split at. -/
theorem not_mem_of_mem_splitOn {α : Type} [BEq α] [LawfulBEq α] (sep : α) (xs piece : List α)
    (h : piece ∈ xs.splitOn sep) : sep ∉ piece := by
  induction xs generalizing piece with
  | nil =>
    rw [List.splitOn_nil, List.mem_singleton] at h
    rw [h]
    exact List.not_mem_nil
  | cons x xs ih =>
    rw [List.splitOn_cons_eq_if_modifyHead] at h
    split at h
    · rcases List.mem_cons.mp h with hnil | hmem
      · rw [hnil]
        exact List.not_mem_nil
      · exact ih piece hmem
    · rename_i hx
      obtain ⟨first, rest, hsplit⟩ := List.exists_cons_of_ne_nil (List.splitOn_ne_nil sep xs)
      rw [hsplit] at h ih
      -- The new element goes to the first piece, and it is no separator.
      rcases List.mem_cons.mp h with hfirst | hmem
      · have hne : sep ≠ x := fun heq => hx (beq_iff_eq.mpr heq.symm)
        have hnot := ih first List.mem_cons_self
        rw [hfirst]
        simp [hne, hnot]
      · exact ih piece (List.mem_cons_of_mem _ hmem)

/-- The first lines of some bytes are where the bytes begin. -/
theorem intercalate_take_prefix {α : Type} (sep : α) (ls : List (List α)) (n : Nat) :
    [sep].intercalate (ls.take n) <+: [sep].intercalate ls := by
  induction ls generalizing n with
  | nil => simp
  | cons line ls ih =>
    cases n with
    | zero => exact List.nil_prefix
    | succ n =>
      cases ls with
      | nil => simp
      | cons next ls =>
        cases n with
        | zero =>
          rw [List.take_succ_cons, List.take_zero, List.intercalate_singleton,
            List.intercalate_cons_cons, List.append_assoc]
          exact List.prefix_append _ _
        | succ n =>
          have hrest := ih (n + 1)
          rw [List.take_succ_cons] at hrest
          rw [List.take_succ_cons, List.take_succ_cons, List.intercalate_cons_cons,
            List.intercalate_cons_cons]
          exact (List.prefix_append_right_inj _).mpr hrest

end Text

namespace Utf8

/-- The byte of a newline. -/
def newline : UInt8 := 0x0A

theorem ofNat_ne_newline (n : Nat) (h : n ≠ 0x0A) : Char.ofNat n ≠ '\n' := by
  intro heq
  have hval : (Char.ofNat n).toNat = 0x0A := congrArg Char.toNat heq
  by_cases hvalid : n.isValidChar
  · have hchar : Char.ofNat n = Char.ofNatAux n hvalid := dif_pos hvalid
    rw [hchar] at hval
    exact h hval
  · -- The character is nul.
    have hchar : Char.ofNat n = Char.ofNat 0 := dif_neg hvalid
    rw [hchar] at hval
    cases hval

theorem toNat_le_of_between (lo b hi : UInt8) (h : (lo ≤ b && b ≤ hi) = true) :
    lo.toNat ≤ b.toNat :=
  UInt8.le_iff_toNat_le.mp (of_decide_eq_true (Bool.and_eq_true_iff.mp h).1)

namespace State

/-- What a decoder inside a character knows: the next byte is no ASCII, and the character will not be
either, whatever bytes complete it. -/
def BeyondAscii : State → Prop
  | .start => True
  | .inside bits more lo _ =>
    0x80 ≤ lo.toNat ∧ 0x80 ≤ bits * 64 ^ (more + 1) + (lo.toNat - 0x80) * 64 ^ more

/-- The decoder goes on as it should after `b`, and puts out a newline only if `b` is one. -/
def Faithful (b : UInt8) (result : State × List (Option Char)) : Prop :=
  result.1.BeyondAscii ∧ (b ≠ newline → some '\n' ∉ result.2)

end State

open State (BeyondAscii Faithful)

theorem faithful_lead (b : UInt8) : Faithful b (lead b) := by
  have hlong (bits more : Nat) (lo hi : UInt8) (h : BeyondAscii (.inside bits more lo hi)) :
      Faithful b (.inside bits more lo hi, []) :=
    ⟨h, fun _ => List.not_mem_nil⟩
  unfold lead
  split
  · -- A byte of ASCII is a character of its own.
    refine ⟨trivial, fun hb hmem => ?_⟩
    have hne : b.toNat ≠ newline.toNat := fun h => hb (UInt8.toNat_inj.mp h)
    exact ofNat_ne_newline _ hne (Option.some.inj (List.mem_singleton.mp hmem)).symm
  split
  · rename_i hb
    have hlo : 0xC2 ≤ b.toNat := toNat_le_of_between _ _ _ hb
    exact hlong _ _ _ _ ⟨by decide, by simp; omega⟩
  split
  · exact hlong _ _ _ _ ⟨by decide, by decide⟩
  split
  · exact hlong _ _ _ _ ⟨by decide, by decide⟩
  split
  · rename_i hb
    have hlo : 0xE1 ≤ b.toNat := toNat_le_of_between _ _ _ hb
    exact hlong _ _ _ _ ⟨by decide, by simp; omega⟩
  split
  · exact hlong _ _ _ _ ⟨by decide, by decide⟩
  split
  · rename_i hb
    have hlo : 0xF1 ≤ b.toNat := toNat_le_of_between _ _ _ hb
    exact hlong _ _ _ _ ⟨by decide, by simp; omega⟩
  split
  · exact hlong _ _ _ _ ⟨by decide, by decide⟩
  · exact ⟨trivial, fun _ => by simp⟩

/-- What a byte puts out keeps newlines apart from the rest, in every state that is reached. -/
theorem faithful_step (s : State) (hs : s.BeyondAscii) (b : UInt8) : Faithful b (step s b) := by
  cases s with
  | start => exact faithful_lead b
  | inside bits more lo hi =>
    obtain ⟨hlo, hbits⟩ := hs
    obtain ⟨hnext, hout⟩ := faithful_lead b
    unfold step
    dsimp only
    split
    · rename_i hb
      have hle : lo.toNat ≤ b.toNat := toNat_le_of_between _ _ _ hb
      cases more with
      | zero =>
        refine ⟨trivial, fun _ hmem => ?_⟩
        have hne : bits * 64 + (b.toNat - 0x80) ≠ 0x0A := by omega
        exact ofNat_ne_newline _ hne (Option.some.inj (List.mem_singleton.mp hmem)).symm
      | succ more =>
        refine ⟨⟨by decide, ?_⟩, fun _ => List.not_mem_nil⟩
        have hgrow : (lo.toNat - 0x80) * 64 ^ (more + 1) ≤ (b.toNat - 0x80) * 64 ^ (more + 1) :=
          Nat.mul_le_mul_right _ (Nat.sub_le_sub_right hle _)
        calc 0x80 ≤ bits * 64 ^ (more + 1 + 1) + (lo.toNat - 0x80) * 64 ^ (more + 1) := hbits
          _ ≤ bits * 64 ^ (more + 1 + 1) + (b.toNat - 0x80) * 64 ^ (more + 1) :=
            Nat.add_le_add_left hgrow _
          _ = (bits * 64 + (b.toNat - 0x80)) * 64 ^ (more + 1) := by
            rw [Nat.add_mul, Nat.mul_assoc, ← Nat.pow_succ']
          _ ≤ _ := Nat.le_add_right _ _
    · -- The byte is read afresh.
      refine ⟨hnext, fun hne hmem => hout hne ?_⟩
      exact (List.mem_cons.mp hmem).resolve_left (Option.some_ne_none _)

theorem scalarsFrom_cons (s : State) (b : UInt8) (bytes : List UInt8) :
    scalarsFrom s (b :: bytes) = (step s b).2 ++ scalarsFrom (step s b).1 bytes := rfl

/-- A byte of ASCII ends whatever came before it and is a character of its own. -/
theorem step_ascii (s : State) (hs : s.BeyondAscii) (b : UInt8) (hb : b < 0x80) :
    step s b = (.start, scalarsFrom s [] ++ [some (Char.ofNat b.toNat)]) := by
  have hlead : lead b = (.start, [some (Char.ofNat b.toNat)]) := if_pos hb
  cases s with
  | start => exact hlead
  | inside bits more lo hi =>
    have hlow : (lo ≤ b && b ≤ hi) = false := by
      have hlt : ¬ lo ≤ b := by
        rw [UInt8.le_iff_toNat_le]
        have hascii : b.toNat < 0x80 := UInt8.lt_iff_toNat_lt.mp hb
        have hlo := hs.1
        omega
      rw [decide_eq_false hlt, Bool.false_and]
    unfold step
    dsimp only
    rw [if_neg (Bool.eq_false_iff.mp hlow), hlead]
    rfl

/-- Bytes are decoded up to a byte of ASCII as if they ended there, and after it afresh. -/
theorem scalarsFrom_append_ascii (s : State) (hs : s.BeyondAscii) (front back : List UInt8) (b : UInt8)
    (hb : b < 0x80) :
    scalarsFrom s (front ++ b :: back) =
      scalarsFrom s front ++ some (Char.ofNat b.toNat) :: scalarsFrom .start back := by
  induction front generalizing s with
  | nil =>
    rw [List.nil_append, scalarsFrom_cons, step_ascii s hs b hb]
    simp
  | cons c front ih =>
    rw [List.cons_append, scalarsFrom_cons, scalarsFrom_cons, ih _ (faithful_step s hs c).1,
      List.append_assoc]

/-- Bytes without a newline hold no newline. -/
theorem not_mem_scalarsFrom (s : State) (hs : s.BeyondAscii) (bytes : List UInt8)
    (h : newline ∉ bytes) : some '\n' ∉ scalarsFrom s bytes := by
  induction bytes generalizing s with
  | nil => cases s <;> simp [scalarsFrom]
  | cons b bytes ih =>
    obtain ⟨hb, hbytes⟩ := List.ne_and_not_mem_of_not_mem_cons h
    obtain ⟨hnext, hout⟩ := faithful_step s hs b
    have hrest := ih _ hnext hbytes
    rw [scalarsFrom_cons]
    exact List.not_mem_append (hout (Ne.symm hb)) hrest

theorem decodeLossy_append_ascii (front back : List UInt8) (b : UInt8) (hb : b < 0x80) :
    decodeLossy (front ++ b :: back) =
      decodeLossy front ++ Char.ofNat b.toNat :: decodeLossy back := by
  unfold decodeLossy scalars
  rw [scalarsFrom_append_ascii .start trivial front back b hb, List.map_append]
  rfl

theorem decodeLossy_append_newline (front back : List UInt8) :
    decodeLossy (front ++ newline :: back) = decodeLossy front ++ '\n' :: decodeLossy back :=
  decodeLossy_append_ascii front back newline (by decide)

theorem not_mem_decodeLossy (bytes : List UInt8) (h : newline ∉ bytes) :
    '\n' ∉ decodeLossy bytes := by
  intro hmem
  obtain ⟨scalar, hscalar, heq⟩ := List.mem_map.mp hmem
  cases scalar with
  | none => exact absurd heq (by decide)
  | some c =>
    have hc : c = '\n' := heq
    rw [hc] at hscalar
    exact not_mem_scalarsFrom .start trivial bytes h hscalar

/-- Splitting at newlines and decoding may change places. -/
theorem splitOn_decodeLossy (bytes : List UInt8) :
    (decodeLossy bytes).splitOn '\n' = (bytes.splitOn newline).map decodeLossy := by
  by_cases hmem : newline ∈ bytes
  · obtain ⟨front, back, rfl, hfront⟩ := List.eq_append_cons_of_mem hmem
    rw [decodeLossy_append_newline, List.splitOn_append_cons_self_of_not_mem hfront, List.map_cons,
      List.splitOn_append_cons_self_of_not_mem (not_mem_decodeLossy front hfront),
      splitOn_decodeLossy back]
  · rw [List.splitOn_eq_singleton hmem, List.splitOn_eq_singleton (not_mem_decodeLossy bytes hmem)]
    rfl
termination_by bytes.length
decreasing_by
  rename_i heq
  rw [heq, List.length_append, List.length_cons]
  omega

end Utf8

open Text in
/-- The lines of a text are the lines of its bytes, each decoded by itself. -/
theorem Utf8.lines_decodeLossy (bytes : List UInt8) :
    lines (decodeLossy bytes) =
      (bytes.splitOn newline).map fun line => trimReturns (decodeLossy line) := by
  rw [lines, pieces_eq_splitOn, splitOn_decodeLossy, List.map_map]
  rfl

/-- Bytes that a newline joins are read one after the other. -/
theorem Utf8.lines_append_newline (front back : List UInt8) :
    Text.lines (decodeLossy (front ++ newline :: back)) =
      Text.lines (decodeLossy front) ++ Text.lines (decodeLossy back) := by
  rw [lines_decodeLossy, List.splitOn_append_cons_self, List.map_append, ← lines_decodeLossy,
    ← lines_decodeLossy]

namespace SymbolBuffer

open Utf8 (newline)

theorem nul_not_mem_text (b : SymbolBuffer) : 0 ∉ b.text := by
  intro hmem
  have hnul := List.mem_takeWhile_imp hmem
  exact absurd hnul (by decide)

/-- Bytes without a nul are read in full, and then what comes after them. -/
theorem text_append (front back : List UInt8) (h : 0 ∉ front) :
    text ⟨front ++ back⟩ = front ++ text ⟨back⟩ := by
  have hall : ∀ b ∈ front, (b != 0) = true := by
    intro b hb
    rw [bne_iff_ne]
    intro hzero
    exact h (hzero ▸ hb)
  unfold text withNul
  rw [List.append_assoc, List.takeWhile_append_of_pos hall]

/-- Bytes without a nul are read in full. -/
theorem text_of_nul_not_mem (content : List UInt8) (h : 0 ∉ content) : text ⟨content⟩ = content := by
  have happend := text_append content [] h
  rw [List.append_nil] at happend
  exact happend.trans (List.append_nil _)

/-- The first `n` lines of the text, without the newline after them. -/
def firstLines (b : SymbolBuffer) (n : Nat) : SymbolBuffer :=
  ⟨[newline].intercalate ((b.text.splitOn newline).take n)⟩

theorem nul_not_mem_firstLines (b : SymbolBuffer) (n : Nat) : 0 ∉ (b.firstLines n).content := by
  intro hmem
  have hbegin := Text.intercalate_take_prefix newline (b.text.splitOn newline) n
  rw [List.intercalate_splitOn] at hbegin
  exact b.nul_not_mem_text (hbegin.subset hmem)

theorem text_firstLines (b : SymbolBuffer) (n : Nat) :
    (b.firstLines n).text = (b.firstLines n).content :=
  text_of_nul_not_mem _ (b.nul_not_mem_firstLines n)

theorem splitOn_firstLines (b : SymbolBuffer) (n : Nat) (hn : n ≠ 0) :
    (b.firstLines n).content.splitOn newline = (b.text.splitOn newline).take n := by
  apply List.splitOn_intercalate newline
  · intro line hline
    exact Text.not_mem_of_mem_splitOn newline b.text line (List.mem_of_mem_take hline)
  · intro hnil
    rcases List.take_eq_nil_iff.mp hnil with hzero | hsplit
    · exact hn hzero
    · exact List.splitOn_ne_nil newline b.text hsplit

/-- The lines of the text, as they are read. -/
def lines (b : SymbolBuffer) : List (List Char) := Text.lines (Utf8.decodeLossy b.text)

theorem lines_firstLines (b : SymbolBuffer) (n : Nat) (hn : n ≠ 0) :
    (b.firstLines n).lines = b.lines.take n := by
  rw [lines, Utf8.lines_decodeLossy, text_firstLines, splitOn_firstLines b n hn, List.map_take,
    ← Utf8.lines_decodeLossy]
  rfl

/-- Texts that a newline joins are read one after the other. -/
theorem lines_append_newline (front back : List UInt8) (h : 0 ∉ front) :
    lines ⟨front ++ newline :: back⟩ = lines ⟨front⟩ ++ lines ⟨back⟩ := by
  have htext : text ⟨front ++ newline :: back⟩ = front ++ newline :: text ⟨back⟩ :=
    (text_append _ _ h).trans (congrArg _ (text_append [newline] back (by decide)))
  unfold lines
  rw [htext, text_of_nul_not_mem front h, Utf8.lines_append_newline]

theorem lines_firstLines_append (b : SymbolBuffer) (n : Nat) (hn : n ≠ 0) (rest : List UInt8) :
    lines ⟨(b.firstLines n).content ++ newline :: rest⟩ = b.lines.take n ++ lines ⟨rest⟩ := by
  rw [lines_append_newline _ _ (b.nul_not_mem_firstLines n), ← b.lines_firstLines n hn]

end SymbolBuffer

end Symbolication
