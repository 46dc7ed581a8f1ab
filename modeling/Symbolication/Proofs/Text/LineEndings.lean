import Mathlib.Data.List.Basic
import Symbolication.Proofs.Text.DecodedLines

/-!
Ways to write the same lines. What stands after the text of a buffer is not read, and a carriage return
before a newline is trimmed off again, whatever bytes stand around it. Lines that are taken out of a
text leave the other lines as they are.
-/

namespace Symbolication

namespace Text

section Remaining

variable {α : Type} (gone : Nat → α → Bool) (xs : List α)

/-- The elements, numbered from 1, that are not gone. -/
def remaining : List α := ((xs.zipIdx 1).filter fun p => !gone p.2 p.1).map Prod.fst

/-- How many elements are gone. -/
def goneCount : Nat := (xs.zipIdx 1).countP fun p => gone p.2 p.1

theorem length_remaining : (remaining gone xs).length + goneCount gone xs = xs.length := by
  let isGone (p : α × Nat) : Bool := gone p.2 p.1
  have hremaining : (remaining gone xs).length =
      (xs.zipIdx 1).countP fun p => decide ¬isGone p = true := by
    rw [remaining, List.length_map, ← List.countP_eq_length_filter]
    simp [isGone]
  calc (remaining gone xs).length + goneCount gone xs
      = (xs.zipIdx 1).countP isGone + (xs.zipIdx 1).countP fun p => decide ¬isGone p = true := by
        rw [hremaining, Nat.add_comm]
        rfl
    _ = (xs.zipIdx 1).length := (List.length_eq_countP_add_countP isGone).symm
    _ = xs.length := List.length_zipIdx

theorem mem_of_mem_remaining (x : α) (h : x ∈ remaining gone xs) : x ∈ xs := by
  obtain ⟨p, hp, rfl⟩ := List.mem_map.mp h
  exact List.fst_mem_of_mem_zipIdx (List.mem_filter.mp hp).1

/-- An element that stays comes after what stays of those before it. -/
theorem remaining_append_cons (front back : List α) (x : α) (h : gone (1 + front.length) x = false) :
    ∃ rest, remaining gone (front ++ x :: back) = remaining gone front ++ x :: rest := by
  have hstays : (!gone (1 + front.length) x) = true := by rw [h, Bool.not_false]
  unfold remaining
  rw [List.zipIdx_append, List.zipIdx_cons, List.filter_append, List.filter_cons,
    if_pos hstays, List.map_append, List.map_cons]
  exact ⟨_, rfl⟩

/-- Elements that have nothing to say may be gone. -/
theorem filterMap_remaining {β : Type} (f : α → Option β)
    (h : ∀ n x, gone n x = true → f x = none) : (remaining gone xs).filterMap f = xs.filterMap f := by
  have hsilent (p : α × Nat) : (if (!gone p.2 p.1) = true then f p.1 else none) = f p.1 := by
    cases hgone : gone p.2 p.1 with
    | false => rfl
    | true => exact (h p.2 p.1 hgone).symm
  have hnumbers : (xs.zipIdx 1).filterMap (f ∘ Prod.fst) = xs.filterMap f := by
    rw [← List.filterMap_map, List.zipIdx_map_fst]
  unfold remaining
  rw [List.filterMap_map, List.filterMap_filter, ← hnumbers]
  exact List.filterMap_congr fun p _ => hsilent p

/-- Elements may be gone for what they are, wherever they stand. -/
theorem remaining_of_const (p : α → Bool) : remaining (fun _ => p) xs = xs.filter fun x => !p x := by
  have hcomp := List.filter_map (f := Prod.fst) (p := fun x => !p x) (l := xs.zipIdx 1)
  rw [List.zipIdx_map_fst] at hcomp
  exact hcomp.symm

theorem remaining_map {β : Type} (f : β → α) (ys : List β) :
    remaining gone (ys.map f) = (remaining (fun n y => gone n (f y)) ys).map f := by
  unfold remaining
  rw [List.zipIdx_map, List.filter_map, List.map_map, List.map_map]
  rfl

end Remaining

theorem trimReturns_concat (line : List Char) : trimReturns (line ++ ['\r']) = trimReturns line := by
  have hreturn : ('\r' == '\r') = true := by decide
  unfold trimReturns
  rw [List.reverse_concat, List.dropWhile_cons, if_pos hreturn]

/-- What is joined holds the elements of the parts and the separator. -/
theorem mem_intercalate_iff {α : Type} (sep a : α) (ls : List (List α)) (hne : a ≠ sep) :
    a ∈ [sep].intercalate ls ↔ ∃ l ∈ ls, a ∈ l := by
  induction ls with
  | nil => simp
  | cons l ls ih =>
    cases ls with
    | nil => simp
    | cons next ls =>
      rw [List.intercalate_cons_cons, List.mem_append, List.mem_append, ih, List.mem_singleton]
      simp only [hne, or_false, List.exists_mem_cons_iff]

end Text

namespace SymbolBuffer

open Utf8 (newline)
open Text (trimReturns remaining)

variable (b : SymbolBuffer)

/-- The text of the buffer, and other bytes after the nul that ends it. -/
def withTail (rest : List UInt8) : SymbolBuffer := ⟨b.text ++ 0 :: rest⟩

theorem text_withTail (rest : List UInt8) : (b.withTail rest).text = b.text := by
  have hend : text ⟨0 :: rest⟩ = [] := rfl
  rw [withTail, text_append _ _ b.nul_not_mem_text, hend, List.append_nil]

def carriageReturn : UInt8 := 0x0D

/-- A byte, with a carriage return before it if it is a newline. -/
def returned (byte : UInt8) : List UInt8 :=
  if byte = newline then [carriageReturn, newline] else [byte]

/-- The buffer with a carriage return before every newline. -/
def withReturns : SymbolBuffer := ⟨b.content.flatMap returned⟩

theorem text_withReturns : b.withReturns.text = b.text.flatMap returned := by
  unfold text withNul withReturns
  induction b.content with
  | nil => rfl
  | cons byte content ih =>
    rw [List.cons_append, List.takeWhile_cons, List.flatMap_cons, List.append_assoc]
    by_cases hnewline : byte = newline
    · subst hnewline
      exact congrArg ([carriageReturn, newline] ++ ·) ih
    · have hreturned : returned byte = [byte] := if_neg hnewline
      rw [hreturned, List.singleton_append, List.takeWhile_cons, ih]
      split
      · rw [List.flatMap_cons, hreturned]
        rfl
      · rfl

theorem flatMap_returned_of_not_mem (bytes : List UInt8) (h : newline ∉ bytes) :
    bytes.flatMap returned = bytes := by
  have hsingle : ∀ byte ∈ bytes, returned byte = [byte] := by
    intro byte hbyte
    apply if_neg
    intro heq
    exact h (heq ▸ hbyte)
  rw [List.flatMap_congr hsingle, List.flatMap_singleton']

/-- A carriage return at the end of a line is not read. -/
theorem lines_concat_carriageReturn (bytes : List UInt8) (h : newline ∉ bytes) :
    Text.lines (Utf8.decodeLossy (bytes ++ [carriageReturn])) = Text.lines (Utf8.decodeLossy bytes) := by
  have hline (bytes : List UInt8) (h : newline ∉ bytes) :
      Text.lines (Utf8.decodeLossy bytes) = [trimReturns (Utf8.decodeLossy bytes)] := by
    rw [Utf8.lines_decodeLossy, List.splitOn_eq_singleton h, List.map_singleton]
  -- An ill-formed stretch at the end of the line ends before the return.
  have hdecode : Utf8.decodeLossy (bytes ++ [carriageReturn]) = Utf8.decodeLossy bytes ++ ['\r'] :=
    Utf8.decodeLossy_append_ascii bytes [] carriageReturn (by decide)
  have hnot : newline ∉ bytes ++ [carriageReturn] := List.not_mem_append h (by decide)
  rw [hline _ hnot, hline _ h, hdecode, Text.trimReturns_concat]

theorem lines_flatMap_returned (bytes : List UInt8) :
    Text.lines (Utf8.decodeLossy (bytes.flatMap returned)) = Text.lines (Utf8.decodeLossy bytes) := by
  by_cases hmem : newline ∈ bytes
  · -- The bytes up to the first newline are a line of their own, with the return or without it.
    obtain ⟨front, back, rfl, hfront⟩ := List.eq_append_cons_of_mem hmem
    have hreturned : (front ++ newline :: back).flatMap returned =
        (front ++ [carriageReturn]) ++ newline :: back.flatMap returned := by
      rw [List.flatMap_append, List.flatMap_cons, flatMap_returned_of_not_mem front hfront,
        List.append_assoc]
      rfl
    rw [hreturned, Utf8.lines_append_newline, lines_concat_carriageReturn front hfront,
      lines_flatMap_returned back, ← Utf8.lines_append_newline]
  · rw [flatMap_returned_of_not_mem bytes hmem]
termination_by bytes.length
decreasing_by
  rename_i heq
  rw [heq, List.length_append, List.length_cons]
  omega

theorem lines_withReturns : b.withReturns.lines = b.lines := by
  rw [lines, text_withReturns, lines_flatMap_returned]
  rfl

/-- A line of bytes as it is read. -/
def readLine (bytes : List UInt8) : List Char := trimReturns (Utf8.decodeLossy bytes)

theorem lines_eq_map_readLine : b.lines = (b.text.splitOn newline).map readLine :=
  Utf8.lines_decodeLossy b.text

section Removal

variable (gone : Nat → List Char → Bool)

/-- The lines of the text that are not gone, as bytes. -/
def remainingBytes : List (List UInt8) :=
  remaining (fun n bytes => gone n (readLine bytes)) (b.text.splitOn newline)

/-- The buffer without the lines of its text that are gone, by their number from 1 and by what they
read. What stands after the text stays. -/
def withoutLines : SymbolBuffer :=
  ⟨[newline].intercalate (b.remainingBytes gone) ++ b.content.dropWhile (· != 0)⟩

theorem mem_splitOn_of_mem_remainingBytes (line : List UInt8) (h : line ∈ b.remainingBytes gone) :
    line ∈ b.text.splitOn newline :=
  Text.mem_of_mem_remaining _ _ line h

theorem nul_not_mem_remainingBytes : 0 ∉ [newline].intercalate (b.remainingBytes gone) := by
  have hne : 0 ≠ newline := by decide
  rw [Text.mem_intercalate_iff newline 0 _ hne]
  intro h
  obtain ⟨line, hline, hmem⟩ := h
  -- The line is a line of the text, which ends before the first nul.
  have htext : 0 ∈ [newline].intercalate (b.text.splitOn newline) :=
    (Text.mem_intercalate_iff newline 0 _ hne).mpr
      ⟨line, b.mem_splitOn_of_mem_remainingBytes gone line hline, hmem⟩
  rw [List.intercalate_splitOn] at htext
  exact b.nul_not_mem_text htext

theorem text_dropWhile (content : List UInt8) : text ⟨content.dropWhile (· != 0)⟩ = [] := by
  induction content with
  | nil => rfl
  | cons byte content ih =>
    rw [List.dropWhile_cons]
    by_cases hbyte : (byte != 0) = true
    · rw [if_pos hbyte]
      exact ih
    · rw [if_neg hbyte, text, withNul, List.cons_append, List.takeWhile_cons, if_neg hbyte]

theorem text_withoutLines :
    (b.withoutLines gone).text = [newline].intercalate (b.remainingBytes gone) := by
  calc (b.withoutLines gone).text
      = [newline].intercalate (b.remainingBytes gone) ++ text ⟨b.content.dropWhile (· != 0)⟩ :=
        text_append _ _ (b.nul_not_mem_remainingBytes gone)
    _ = [newline].intercalate (b.remainingBytes gone) := by rw [text_dropWhile, List.append_nil]

/-- The lines that are left are those that are not gone, or one blank line if all of them are. -/
theorem lines_withoutLines :
    (b.withoutLines gone).lines =
      if remaining gone b.lines = [] then [[]] else remaining gone b.lines := by
  have hlines : remaining gone b.lines = (b.remainingBytes gone).map readLine := by
    rw [lines_eq_map_readLine, Text.remaining_map]
    rfl
  rw [lines_eq_map_readLine, text_withoutLines, hlines]
  by_cases hnil : b.remainingBytes gone = []
  · rw [hnil]
    rfl
  · have hne : (b.remainingBytes gone).map readLine ≠ [] := by
      rwa [ne_eq, List.map_eq_nil_iff]
    have hsplit : ([newline].intercalate (b.remainingBytes gone)).splitOn newline = b.remainingBytes gone := by
      apply List.splitOn_intercalate newline
      · intro line hline
        exact Text.not_mem_of_mem_splitOn newline b.text line
          (b.mem_splitOn_of_mem_remainingBytes gone line hline)
      · exact hnil
    rw [if_neg hne, hsplit]

end Removal

end SymbolBuffer

end Symbolication
