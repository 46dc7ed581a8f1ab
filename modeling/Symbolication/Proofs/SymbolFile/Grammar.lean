import Mathlib.Data.List.Forall2
import Symbolication.Proofs.SymbolFile.Records
import Symbolication.Proofs.Text.Field

/-!
The grammar of symbol files. A line holds a record exactly if it joins, by single spaces, a keyword and
fields of the right kinds; which record it holds is a relation between records and lines that does not
refer to how lines are read.
-/

namespace Symbolication.SymbolFile

open Text
open Digits (HexNumeral DecimalNumeral)
open FieldReader (Needs needs_field needs_hex64 needs_hex32 needs_decimal32 needs_remainder
  needs_nonemptyRemainder read?_field_bind read?_hex64_bind read?_hex32_bind read?_decimal32_bind
  read?_decimal32_noMore read?_remainder read?_nonemptyRemainder read?_skipWord_bind)

/-- The fields of a `STACK WIN` record as they stand on its line. -/
structure LayoutFields where
  type : UInt32
  base : UInt64
  size : UInt64
  prologueSize : UInt32
  epilogueSize : UInt32
  parameterSize : UInt32
  savedRegisterSize : UInt32
  localSize : UInt32
  maxStackSize : UInt32
  hasProgram : Bool
  last : List Char
  deriving DecidableEq

namespace LayoutFields

/-- The numbers of the record, in the order of the line. -/
def numbers (f : LayoutFields) : List Nat :=
  [f.type.toNat, f.base.toNat, f.size.toNat, f.prologueSize.toNat, f.epilogueSize.toNat,
    f.parameterSize.toNat, f.savedRegisterSize.toNat, f.localSize.toNat, f.maxStackSize.toNat]

def flag (hasProgram : Bool) : List Char := if hasProgram then ['1'] else ['0']

/-- The line holds the fields. -/
def Writes (f : LayoutFields) (line : List Char) : Prop :=
  ∃ words, List.Forall₂ HexNumeral words f.numbers ∧
    line = joinTokens (["STACK".toList, "WIN".toList] ++ words ++ [flag f.hasProgram, f.last])

/-- The layout with the sizes of the record. -/
def layout (f : LayoutFields) (allocatesBasePointer : Bool) (program : Option String) :
    FrameLayout where
  kind := .ofNumber f.type
  valid := .all
  prologueSize := f.prologueSize
  epilogueSize := f.epilogueSize
  parameterSize := f.parameterSize
  savedRegisterSize := f.savedRegisterSize
  localSize := f.localSize
  maxStackSize := f.maxStackSize
  allocatesBasePointer := allocatesBasePointer
  program := program

end LayoutFields

/-- The line holds the record. -/
inductive Record.Writes : Record → List Char → Prop where
  | ignored (word line : List Char)
    (hword : word ∈ ["INFO".toList, "INLINE".toList, "INLINE_ORIGIN".toList])
    (hline : line = word ∨ ∃ rest, line = word ++ ' ' :: rest) : Writes .ignored line
  | header (os cpu id name : List Char) (hos : ' ' ∉ os) (hcpu : ' ' ∉ cpu) (hid : ' ' ∉ id)
    (hname : name ≠ []) :
    Writes (.header ⟨String.ofList os, String.ofList cpu, String.ofList id, String.ofList name⟩)
      (joinTokens ["MODULE".toList, os, cpu, id, name])
  | file (number name : List Char) (n : UInt32) (hnumber : DecimalNumeral number n.toNat)
    (hname : name ≠ []) :
    Writes (.file n (String.ofList name)) (joinTokens ["FILE".toList, number, name])
  | function (mark : List (List Char)) (base size parameterSize name : List Char) (b s : UInt64)
    (p : UInt32) (hmark : mark = [] ∨ mark = [['m']]) (hbase : HexNumeral base b.toNat)
    (hsize : HexNumeral size s.toNat) (hparameterSize : HexNumeral parameterSize p.toNat) :
    Writes (.function ⟨b, s, p, String.ofList name⟩)
      (joinTokens (["FUNC".toList] ++ mark ++ [base, size, parameterSize, name]))
  | publicSymbol (mark : List (List Char)) (address parameterSize name : List Char) (a : UInt64)
    (p : UInt32) (hmark : mark = [] ∨ mark = [['m']]) (haddress : HexNumeral address a.toNat)
    (hparameterSize : HexNumeral parameterSize p.toNat) :
    Writes (.publicSymbol a ⟨String.ofList name, p⟩)
      (joinTokens (["PUBLIC".toList] ++ mark ++ [address, parameterSize, name]))
  | line (base size number file : List Char) (b s : UInt64) (n f : UInt32)
    (hbase : HexNumeral base b.toNat) (hsize : HexNumeral size s.toNat)
    (hnumber : DecimalNumeral number n.toNat) (hfile : DecimalNumeral file f.toNat) :
    Writes (.line b s ⟨n, f⟩) (joinTokens [base, size, number, file])
  | programLayout (f : LayoutFields) (line : List Char) (hline : f.Writes line) (htype : f.type = 4)
    (hflag : f.hasProgram = true) :
    Writes (.layout f.base f.size (f.layout false (some (String.ofList f.last)))) line
  | plainLayout (f : LayoutFields) (line : List Char) (n : UInt64) (hline : f.Writes line)
    (htype : f.type ≠ 4) (hflag : f.hasProgram = false) (hlast : HexNumeral f.last n.toNat) :
    Writes (.layout f.base f.size (f.layout (n != 0) none)) line
  | mismatchedLayout (f : LayoutFields) (line : List Char) (hline : f.Writes line)
    (hmismatch : f.type = 4 ↔ f.hasProgram = false) :
    Writes (.mismatchedLayout f.base f.type f.hasProgram) line
  | cfiInit (base size rules : List Char) (b s : UInt64) (hbase : HexNumeral base b.toNat)
    (hsize : HexNumeral size s.toNat) (hrules : rules ≠ []) :
    Writes (.cfiInit b s (String.ofList rules))
      (joinTokens ["STACK".toList, "CFI".toList, "INIT".toList, base, size, rules])
  | cfiDelta (address rules : List Char) (a : UInt64) (haddress : HexNumeral address a.toNat)
    (hrules : rules ≠ []) :
    Writes (.cfiDelta a (String.ofList rules))
      (joinTokens ["STACK".toList, "CFI".toList, address, rules])

namespace Record

section Readers

variable (line : List Char)

theorem read?_headerReader (header : Header) :
    FieldReader.read? headerReader line = some header ↔
      ∃ os cpu id name, line = joinTokens [os, cpu, id, name] ∧ ' ' ∉ os ∧ ' ' ∉ cpu ∧ ' ' ∉ id ∧
        name ≠ [] ∧
          header = ⟨String.ofList os, String.ofList cpu, String.ofList id, String.ofList name⟩ := by
  unfold headerReader stringField
  simp only [bind_assoc, pure_bind, read?_field_bind, read?_nonemptyRemainder, Needs.bind,
    needs_field, needs_nonemptyRemainder, implies_true]
  constructor
  · rintro ⟨os, _, rfl, hos, cpu, _, rfl, hcpu, id, name, rfl, hid, hname, rfl⟩
    exact ⟨os, cpu, id, name, rfl, hos, hcpu, hid, hname, rfl⟩
  · rintro ⟨os, cpu, id, name, rfl, hos, hcpu, hid, hname, rfl⟩
    exact ⟨os, _, rfl, hos, cpu, _, rfl, hcpu, id, name, rfl, hid, hname, rfl⟩

theorem read?_fileReader (n : UInt32) (text : String) :
    FieldReader.read? fileReader line = some (n, text) ↔
      ∃ number name, line = joinTokens [number, name] ∧ DecimalNumeral number n.toNat ∧
        name ≠ [] ∧ text = String.ofList name := by
  unfold fileReader
  simp only [read?_decimal32_bind, read?_nonemptyRemainder, Needs.bind, needs_nonemptyRemainder,
    implies_true]
  constructor
  · rintro ⟨number, _, name, rfl, hnumber, hname, heq⟩
    cases heq
    exact ⟨number, name, rfl, hnumber, hname, rfl⟩
  · rintro ⟨number, name, rfl, hnumber, hname, rfl⟩
    exact ⟨number, n, name, rfl, hnumber, hname, rfl⟩

theorem read?_lineReader (r : Record) :
    FieldReader.read? lineReader line = some r ↔
      ∃ base size number file b s n f, line = joinTokens [base, size, number, file] ∧
        HexNumeral base (UInt64.toNat b) ∧ HexNumeral size (UInt64.toNat s) ∧
        DecimalNumeral number (UInt32.toNat n) ∧ DecimalNumeral file (UInt32.toNat f) ∧
        r = .line b s ⟨n, f⟩ := by
  unfold lineReader
  simp only [read?_hex64_bind, read?_decimal32_bind, read?_decimal32_noMore, Needs.bind,
    needs_hex64, needs_decimal32, implies_true]
  constructor
  · rintro ⟨base, b, _, rfl, hb, size, s, _, rfl, hs, number, n, file, rfl, hn, f, hf, rfl⟩
    exact ⟨base, size, number, file, b, s, n, f, rfl, hb, hs, hn, hf, rfl⟩
  · rintro ⟨base, size, number, file, b, s, n, f, rfl, hb, hs, hn, hf, rfl⟩
    exact ⟨base, b, _, rfl, hb, size, s, _, rfl, hs, number, n, file, rfl, hn, f, hf, rfl⟩

theorem read?_cfiInitReader (r : Record) :
    FieldReader.read? cfiInitReader line = some r ↔
      ∃ base size rules b s, line = joinTokens [base, size, rules] ∧
        HexNumeral base (UInt64.toNat b) ∧ HexNumeral size (UInt64.toNat s) ∧ rules ≠ [] ∧
        r = .cfiInit b s (String.ofList rules) := by
  unfold cfiInitReader
  simp only [read?_hex64_bind, read?_nonemptyRemainder, Needs.bind, needs_hex64,
    needs_nonemptyRemainder, implies_true]
  constructor
  · rintro ⟨base, b, _, rfl, hb, size, s, rules, rfl, hs, hrules, rfl⟩
    exact ⟨base, size, rules, b, s, rfl, hb, hs, hrules, rfl⟩
  · rintro ⟨base, size, rules, b, s, rfl, hb, hs, hrules, rfl⟩
    exact ⟨base, b, _, rfl, hb, size, s, rules, rfl, hs, hrules, rfl⟩

theorem read?_cfiDeltaReader (r : Record) :
    FieldReader.read? cfiDeltaReader line = some r ↔
      ∃ address rules a, line = joinTokens [address, rules] ∧
        HexNumeral address (UInt64.toNat a) ∧ rules ≠ [] ∧
        r = .cfiDelta a (String.ofList rules) := by
  unfold cfiDeltaReader
  simp only [read?_hex64_bind, read?_nonemptyRemainder, Needs.bind, needs_nonemptyRemainder,
    implies_true]
  constructor
  · rintro ⟨address, a, rules, rfl, ha, hrules, rfl⟩
    exact ⟨address, rules, a, rfl, ha, hrules, rfl⟩
  · rintro ⟨address, rules, a, rfl, ha, hrules, rfl⟩
    exact ⟨address, a, rules, rfl, ha, hrules, rfl⟩

/-- What holds of no marked line holds of a line without its mark exactly if it holds of the line or the
line is a marked one. -/
theorem unmarked_iff (P : List Char → Prop) (hP : ∀ body, ¬P ('m' :: ' ' :: body)) :
    P (((multipleMark ++ [' ']).isPrefixOf? line).getD line) ↔
      P line ∨ ∃ body, line = 'm' :: ' ' :: body ∧ P body := by
  have hmarked (body : List Char) : (multipleMark ++ [' ']).isPrefixOf? line = some body ↔
      'm' :: ' ' :: body = line := List.isPrefixOf?_eq_some_iff_append_eq
  cases hmark : (multipleMark ++ [' ']).isPrefixOf? line with
  | some body =>
    have hline := (hmarked body).mp hmark
    subst hline
    rw [Option.getD_some]
    constructor
    · intro h
      exact Or.inr ⟨body, rfl, h⟩
    · rintro (h | ⟨body', hline, h⟩)
      · exact absurd h (hP body)
      · cases hline
        exact h
  | none =>
    rw [Option.getD_none]
    constructor
    · intro h
      exact Or.inl h
    · rintro (h | ⟨body, hline, -⟩)
      · exact h
      · rw [(hmarked body).mpr hline.symm] at hmark
        cases hmark

/-- The mark is no numeral. -/
theorem numeral_append_ne_marked (w rest body : List Char) (n : Nat) (h : HexNumeral w n) :
    'm' :: ' ' :: body ≠ w ++ ' ' :: rest := by
  intro heq
  cases w with
  | nil => exact h.1 rfl
  | cons c w =>
    obtain ⟨rfl, -⟩ := List.cons.inj heq
    have hdigit : (Digits.hexDigit? 'm').isSome = true := h.isSome_digit? 'm' List.mem_cons_self
    revert hdigit
    decide

theorem read?_functionReader (head : FunctionHead) :
    FieldReader.read? functionReader line = some head ↔
      ∃ mark base size parameterSize name b s p, (mark = [] ∨ mark = [['m']]) ∧
        line = joinTokens (mark ++ [base, size, parameterSize, name]) ∧
        HexNumeral base (UInt64.toNat b) ∧ HexNumeral size (UInt64.toNat s) ∧
        HexNumeral parameterSize (UInt32.toNat p) ∧ head = ⟨b, s, p, String.ofList name⟩ := by
  unfold functionReader
  -- A marked line is not read without its mark, so the two cases exclude each other.
  rw [read?_skipWord_bind, unmarked_iff line fun rest => FieldReader.read? _ rest = some head]
  · simp only [read?_hex64_bind, read?_hex32_bind, read?_remainder, Needs.bind, needs_hex64,
      needs_hex32, needs_remainder, implies_true]
    constructor
    · rintro (⟨base, b, _, rfl, hb, size, s, _, rfl, hs, parameterSize, p, name, rfl, hp, rfl⟩ |
        ⟨_, rfl, base, b, _, rfl, hb, size, s, _, rfl, hs, parameterSize, p, name, rfl, hp, rfl⟩)
      · exact ⟨[], base, size, parameterSize, name, b, s, p, Or.inl rfl, rfl, hb, hs, hp, rfl⟩
      · exact ⟨[['m']], base, size, parameterSize, name, b, s, p, Or.inr rfl, rfl, hb, hs, hp, rfl⟩
    · rintro ⟨mark, base, size, parameterSize, name, b, s, p, rfl | rfl, rfl, hb, hs, hp, rfl⟩
      · exact Or.inl
          ⟨base, b, _, rfl, hb, size, s, _, rfl, hs, parameterSize, p, name, rfl, hp, rfl⟩
      · exact Or.inr
          ⟨_, rfl, base, b, _, rfl, hb, size, s, _, rfl, hs, parameterSize, p, name, rfl, hp, rfl⟩
  · intro body h
    simp only [read?_hex64_bind, Needs.bind, needs_hex64, implies_true] at h
    obtain ⟨base, b, _, hline, hb, -⟩ := h
    exact numeral_append_ne_marked _ _ _ _ hb hline

theorem read?_publicReader (a : UInt64) (symbol : PublicSymbol) :
    FieldReader.read? publicReader line = some (a, symbol) ↔
      ∃ mark address parameterSize name p, (mark = [] ∨ mark = [['m']]) ∧
        line = joinTokens (mark ++ [address, parameterSize, name]) ∧
        HexNumeral address a.toNat ∧ HexNumeral parameterSize (UInt32.toNat p) ∧
        symbol = ⟨String.ofList name, p⟩ := by
  unfold publicReader
  rw [read?_skipWord_bind, unmarked_iff line fun rest => FieldReader.read? _ rest = some (a, symbol)]
  · simp only [read?_hex64_bind, read?_hex32_bind, read?_remainder, Needs.bind, needs_hex32,
      needs_remainder, implies_true]
    constructor
    · rintro (⟨address, _, _, rfl, ha, parameterSize, p, name, rfl, hp, heq⟩ |
        ⟨_, rfl, address, _, _, rfl, ha, parameterSize, p, name, rfl, hp, heq⟩)
      · cases heq
        exact ⟨[], address, parameterSize, name, p, Or.inl rfl, rfl, ha, hp, rfl⟩
      · cases heq
        exact ⟨[['m']], address, parameterSize, name, p, Or.inr rfl, rfl, ha, hp, rfl⟩
    · rintro ⟨mark, address, parameterSize, name, p, rfl | rfl, rfl, ha, hp, rfl⟩
      · exact Or.inl ⟨address, a, _, rfl, ha, parameterSize, p, name, rfl, hp, rfl⟩
      · exact Or.inr ⟨_, rfl, address, a, _, rfl, ha, parameterSize, p, name, rfl, hp, rfl⟩
  · intro body h
    simp only [read?_hex64_bind, Needs.bind, needs_hex32, implies_true] at h
    obtain ⟨address, _, _, hline, ha, -⟩ := h
    exact numeral_append_ne_marked _ _ _ _ ha hline

end Readers

end Record

namespace LayoutFields

/-- The fields of a layout record, from what follows `STACK WIN`. -/
def reader : FieldReader LayoutFields := do
  let type ← FieldReader.hex32
  let base ← FieldReader.hex64
  let size ← FieldReader.hex64
  let prologueSize ← FieldReader.hex32
  let epilogueSize ← FieldReader.hex32
  let parameterSize ← FieldReader.hex32
  let savedRegisterSize ← FieldReader.hex32
  let localSize ← FieldReader.hex32
  let maxStackSize ← FieldReader.hex32
  let hasProgram ← Record.programFlag
  let last ← FieldReader.remainder
  return {
    type, base, size, prologueSize, epilogueSize, parameterSize, savedRegisterSize, localSize
    maxStackSize, hasProgram, last }

/-- The record that the fields make, if the last one is well formed. -/
def record? (f : LayoutFields) : Option Record :=
  if decide (LayoutKind.ofNumber f.type = .frameData) != f.hasProgram then
    some (.mismatchedLayout f.base f.type f.hasProgram)
  else
    (Record.layoutTail? f.hasProgram f.last).map fun tail =>
      .layout f.base f.size (f.layout tail.1 tail.2)

theorem layoutReader_eq : Record.layoutReader = reader >>= fun f => liftM f.record? := by
  unfold Record.layoutReader reader
  simp only [bind_assoc, pure_bind]
  -- Both readers take the same eleven fields and differ only in what they make of them.
  iterate 11 refine bind_congr fun _ => ?_
  unfold record?
  dsimp only
  split
  · rfl
  · cases Record.layoutTail? _ _ <;> rfl

theorem needs_programFlag : Record.programFlag.Needs := rfl

theorem read?_programFlag_bind {β : Type} (g : Bool → FieldReader β) (hg : ∀ b, (g b).Needs)
    (line : List Char) (b : β) :
    FieldReader.read? (Record.programFlag >>= g) line = some b ↔
      ∃ hasProgram rest, line = flag hasProgram ++ ' ' :: rest ∧
        FieldReader.read? (g hasProgram) rest = some b := by
  let flag? (w : List Char) : Option Bool :=
    if w = ['0'] then some false else if w = ['1'] then some true else none
  have hflag (w : List Char) (hasProgram : Bool) :
      flag? w = some hasProgram ↔ w = flag hasProgram := by
    cases hasProgram with
    | false => simp only [flag?, flag]; grind
    | true => simp only [flag?, flag]; grind
  have hreader : Record.programFlag = FieldReader.field >>= fun w => liftM (flag? w) := by
    refine bind_congr fun w => ?_
    simp only [flag?]
    split
    · rfl
    · split <;> rfl
  rw [FieldReader.read?_word_bind Record.programFlag flag? hreader _ g hg]
  · simp only [hflag]
    constructor
    · rintro ⟨_, hasProgram, rest, hline, rfl, h⟩
      exact ⟨hasProgram, rest, hline, h⟩
    · rintro ⟨hasProgram, rest, hline, h⟩
      exact ⟨_, hasProgram, rest, hline, rfl, h⟩
  · intro w hasProgram h
    rw [hflag] at h
    rw [h]
    cases hasProgram <;> decide

theorem read?_reader (f : LayoutFields) (line : List Char) :
    FieldReader.read? reader line = some f ↔
      ∃ words, List.Forall₂ HexNumeral words f.numbers ∧
        line = joinTokens (words ++ [flag f.hasProgram, f.last]) := by
  unfold reader
  simp only [read?_hex64_bind, read?_hex32_bind, read?_programFlag_bind, read?_remainder, Needs.bind,
    needs_hex64, needs_hex32, needs_programFlag, needs_remainder, implies_true]
  constructor
  · rintro ⟨w₁, n₁, _, rfl, h₁, w₂, n₂, _, rfl, h₂, w₃, n₃, _, rfl, h₃, w₄, n₄, _, rfl, h₄, w₅, n₅, _,
      rfl, h₅, w₆, n₆, _, rfl, h₆, w₇, n₇, _, rfl, h₇, w₈, n₈, _, rfl, h₈, w₉, n₉, _, rfl, h₉,
      hasProgram, last, rfl, rfl⟩
    refine ⟨[w₁, w₂, w₃, w₄, w₅, w₆, w₇, w₈, w₉], ?_, rfl⟩
    simp [numbers, *]
  · rintro ⟨words, hwords, rfl⟩
    simp only [numbers, List.forall₂_cons_right_iff, List.forall₂_nil_right_iff] at hwords
    obtain ⟨w₁, _, h₁, ⟨w₂, _, h₂, ⟨w₃, _, h₃, ⟨w₄, _, h₄, ⟨w₅, _, h₅, ⟨w₆, _, h₆, ⟨w₇, _, h₇,
      ⟨w₈, _, h₈, ⟨w₉, _, h₉, rfl, rfl⟩, rfl⟩, rfl⟩, rfl⟩, rfl⟩, rfl⟩, rfl⟩, rfl⟩, rfl⟩ := hwords
    exact ⟨w₁, _, _, rfl, h₁, w₂, _, _, rfl, h₂, w₃, _, _, rfl, h₃, w₄, _, _, rfl, h₄, w₅, _, _, rfl, h₅,
      w₆, _, _, rfl, h₆, w₇, _, _, rfl, h₇, w₈, _, _, rfl, h₈, w₉, _, _, rfl, h₉, _, _, rfl, rfl⟩

theorem ofNumber_eq_frameData_iff (n : UInt32) : LayoutKind.ofNumber n = .frameData ↔ n = 4 := by
  unfold LayoutKind.ofNumber
  split_ifs <;> simp_all

/-- Which record the fields make: one of the two kinds that agree with their flag, or none. -/
theorem record?_eq_some_iff (f : LayoutFields) (r : Record) :
    f.record? = some r ↔
      (f.type = 4 ∧ f.hasProgram = true ∧
        r = .layout f.base f.size (f.layout false (some (String.ofList f.last)))) ∨
      (f.type ≠ 4 ∧ f.hasProgram = false ∧ ∃ n : UInt64, HexNumeral f.last n.toNat ∧
        r = .layout f.base f.size (f.layout (n != 0) none)) ∨
      ((f.type = 4 ↔ f.hasProgram = false) ∧
        r = .mismatchedLayout f.base f.type f.hasProgram) := by
  unfold record?
  simp only [ofNumber_eq_frameData_iff]
  by_cases htype : f.type = 4 <;> cases hflag : f.hasProgram
  · simp [htype, eq_comm]
  · simp [htype, Record.layoutTail?, eq_comm]
  · simp [htype, Record.layoutTail?, Digits.hex64?_eq_some_iff, @eq_comm Record r]
  · simp [htype, eq_comm]

end LayoutFields

namespace Record

theorem read?_layoutReader (line : List Char) (r : Record) :
    FieldReader.read? layoutReader line = some r ↔
      ∃ f, FieldReader.read? LayoutFields.reader line = some f ∧ f.record? = some r := by
  have hread : FieldReader.read? layoutReader line =
      (FieldReader.read? LayoutFields.reader line).bind LayoutFields.record? := by
    rw [LayoutFields.layoutReader_eq]
    change ((LayoutFields.reader (some line)).bind _).map Prod.fst = _
    unfold FieldReader.read?
    change _ = ((LayoutFields.reader (some line)).map Prod.fst).bind _
    cases LayoutFields.reader (some line) with
    | none => rfl
    | some p =>
      change ((liftM p.1.record? : FieldReader Record) p.2).map Prod.fst = p.1.record?
      cases p.1.record? <;> rfl
  rw [hread, Option.bind_eq_some_iff]

end Record

theorem splitAt?_fst_iff (word line : List Char) (hword : ' ' ∉ word) :
    (splitAt? ' ' line).1 = word ↔ line = word ∨ ∃ rest, line = word ++ ' ' :: rest := by
  constructor
  · intro hfirst
    cases hrest : (splitAt? ' ' line).2 with
    | none => exact Or.inl ((splitAt?_eq_none_iff ' ' line word).mp (Prod.ext hfirst hrest)).1
    | some rest =>
      exact Or.inr ⟨rest, ((splitAt?_eq_some_iff ' ' line word rest).mp (Prod.ext hfirst hrest)).1⟩
  · rintro (rfl | ⟨rest, rfl⟩)
    · rw [(splitAt?_eq_none_iff ' ' line line).mpr ⟨rfl, hword⟩]
    · rw [splitAt?_append_cons ' ' word rest hword]

/-- A line whose first word is `word` and whose other fields satisfy `P`, which needs something after
the word. -/
theorem splitAt?_word_iff (word line : List Char) (P : List Char → Prop) (hword : ' ' ∉ word)
    (hP : ¬P []) :
    (splitAt? ' ' line).1 = word ∧ P ((splitAt? ' ' line).2.getD []) ↔
      ∃ rest, line = word ++ ' ' :: rest ∧ P rest := by
  constructor
  · rintro ⟨hfirst, h⟩
    cases hrest : (splitAt? ' ' line).2 with
    | none =>
      rw [hrest] at h
      exact absurd h hP
    | some rest =>
      rw [hrest] at h
      obtain ⟨hline, -⟩ := (splitAt?_eq_some_iff ' ' line word rest).mp (Prod.ext hfirst hrest)
      exact ⟨rest, hline, h⟩
  · rintro ⟨rest, rfl, h⟩
    rw [splitAt?_append_cons ' ' word rest hword]
    exact ⟨rfl, h⟩

namespace Record

/-- The three shapes of a stack record. A delta record cannot be taken for an initial one, for `INIT`
is no address. -/
theorem readStack?_eq_some_iff (rest : List Char) (r : Record) :
    readStack? rest = some r ↔
      (∃ body, rest = "WIN".toList ++ ' ' :: body ∧ FieldReader.read? layoutReader body = some r) ∨
      (∃ body, rest = "CFI".toList ++ ' ' :: ("INIT".toList ++ ' ' :: body) ∧
        FieldReader.read? cfiInitReader body = some r) ∨
      (∃ body, rest = "CFI".toList ++ ' ' :: body ∧
        FieldReader.read? cfiDeltaReader body = some r) := by
  have hinit (body tail : List Char) : "INIT ".toList.isPrefixOf? body = some tail ↔
      "INIT".toList ++ ' ' :: tail = body := List.isPrefixOf?_eq_some_iff_append_eq
  have hdelta (body : List Char) :
      FieldReader.read? cfiDeltaReader ("INIT".toList ++ ' ' :: body) ≠ some r := by
    intro h
    obtain ⟨address, rules, a, hline, ha, -⟩ := (read?_cfiDeltaReader _ r).mp h
    cases address with
    | nil => exact ha.1 rfl
    | cons c address =>
      obtain ⟨rfl, -⟩ := List.cons.inj hline
      have hdigit : (Digits.hexDigit? 'I').isSome = true := ha.isSome_digit? 'I' List.mem_cons_self
      revert hdigit
      decide
  constructor
  · intro h
    obtain ⟨word, rest?, hsplit⟩ : ∃ word rest?, splitAt? ' ' rest = (word, rest?) := ⟨_, _, rfl⟩
    simp only [readStack?, hsplit, Option.bind_eq_bind, Option.bind_eq_some_iff] at h
    obtain ⟨body, rfl, h⟩ := h
    obtain ⟨hrest, -⟩ := (splitAt?_eq_some_iff ' ' rest word body).mp hsplit
    split at h
    · rename_i hword
      rw [hword] at hrest
      exact Or.inl ⟨body, hrest, h⟩
    · split at h
      · rename_i hword
        rw [hword] at hrest
        split at h
        · rename_i tail htail
          rw [← (hinit body tail).mp htail] at hrest
          exact Or.inr (Or.inl ⟨tail, hrest, h⟩)
        · exact Or.inr (Or.inr ⟨body, hrest, h⟩)
      · cases h
  · rintro (⟨body, rfl, h⟩ | ⟨body, rfl, h⟩ | ⟨body, rfl, h⟩)
    · exact h
    · exact h
    · -- The body of a delta record does not start with `INIT`, or it could not be read.
      have hnone : "INIT ".toList.isPrefixOf? body = none := by
        rw [Option.eq_none_iff_forall_ne_some]
        intro tail htail
        rw [← (hinit body tail).mp htail] at h
        exact hdelta tail h
      simp only [readStack?, splitAt?_append_cons ' ' "CFI".toList body (by decide), hnone,
        Option.bind_eq_bind, Option.bind_some, reduceIte]
      exact h

end Record

namespace RecordKind

/-- The words that announce the kind; a line record has none. -/
def keywords : RecordKind → List (List Char)
  | ignored => ["INFO".toList, "INLINE".toList, "INLINE_ORIGIN".toList]
  | header => ["MODULE".toList]
  | file => ["FILE".toList]
  | function => ["FUNC".toList]
  | publicSymbol => ["PUBLIC".toList]
  | stack => ["STACK".toList]
  | line => []

theorem ofWord?_eq_some_iff (word : List Char) (kind : RecordKind) :
    ofWord? word = some kind ↔
      word ∈ kind.keywords ∨ kind = .line ∧ word.all Digits.isHexDigit = true := by
  constructor
  · intro h
    unfold ofWord? at h
    split_ifs at h <;> cases h
    case pos hword =>
      rcases hword with rfl | rfl | rfl <;> exact Or.inl (by decide)
    all_goals simp_all [keywords]
  · rintro (h | ⟨rfl, h⟩)
    · cases kind <;> simp only [keywords, List.mem_cons, List.not_mem_nil, or_false] at h
      case ignored => rcases h with rfl | rfl | rfl <;> rfl
      all_goals
        subst h
        rfl
    · -- No keyword consists of hexadecimal digits, so a run of them gets past every test.
      have hne (keyword : List Char) (hkeyword : keyword.all Digits.isHexDigit = false) :
          word ≠ keyword := by
        rintro rfl
        rw [hkeyword] at h
        cases h
      have hinfo := hne "INFO".toList (by decide)
      have hinline := hne "INLINE".toList (by decide)
      have horigin := hne "INLINE_ORIGIN".toList (by decide)
      have hheader := hne "MODULE".toList (by decide)
      have hfile := hne "FILE".toList (by decide)
      have hfunction := hne "FUNC".toList (by decide)
      have hpublic := hne "PUBLIC".toList (by decide)
      have hstack := hne "STACK".toList (by decide)
      unfold ofWord?
      simp only [*, or_self, if_true, if_false]

end RecordKind

/-- The lines that are read as the kind which `word` alone announces, if `read` reads their fields. -/
theorem read?_keyword_iff (kind : RecordKind) (word : List Char) (read : List Char → Option Record)
    (hkeywords : kind.keywords = [word]) (hspace : ' ' ∉ word)
    (hread : ∀ line, Record.read? kind line = read ((splitAt? ' ' line).2.getD []))
    (hnil : read [] = none) (line : List Char) (r : Record) :
    kindOfLine? line = some kind ∧ Record.read? kind line = some r ↔
      ∃ rest, line = word ++ ' ' :: rest ∧ read rest = some r := by
  have hkind : kind ≠ .line := by
    rintro rfl
    cases hkeywords
  have hword : kindOfLine? line = some kind ↔ (splitAt? ' ' line).1 = word := by
    simp [kindOfLine?, RecordKind.ofWord?_eq_some_iff, hkeywords, hkind]
  rw [hword, hread]
  refine splitAt?_word_iff word line (fun rest => read rest = some r) hspace ?_
  rw [hnil]
  exact nofun

namespace LayoutFields

theorem writes_iff (f : LayoutFields) (line : List Char) :
    f.Writes line ↔
      ∃ body, line = "STACK".toList ++ ' ' :: ("WIN".toList ++ ' ' :: body) ∧
        FieldReader.read? reader body = some f := by
  simp only [read?_reader]
  constructor
  · rintro ⟨words, hwords, rfl⟩
    cases words with
    | nil => cases hwords
    | cons w words => exact ⟨_, rfl, _, hwords, rfl⟩
  · rintro ⟨_, rfl, words, hwords, rfl⟩
    cases words with
    | nil => cases hwords
    | cons w words => exact ⟨_, hwords, rfl⟩

end LayoutFields

namespace Record

theorem writes_of_readStack? (rest : List Char) (r : Record) (h : readStack? rest = some r) :
    r.Writes ("STACK".toList ++ ' ' :: rest) := by
  rw [readStack?_eq_some_iff] at h
  simp only [read?_layoutReader, read?_cfiInitReader, read?_cfiDeltaReader,
    LayoutFields.record?_eq_some_iff] at h
  rcases h with ⟨body, rfl, f, hf, h⟩ | ⟨_, rfl, base, size, rules, b, s, rfl, hb, hs, hrules, rfl⟩ |
    ⟨_, rfl, address, rules, a, rfl, ha, hrules, rfl⟩
  · have hline := (LayoutFields.writes_iff f _).mpr ⟨body, rfl, hf⟩
    rcases h with ⟨htype, hflag, rfl⟩ | ⟨htype, hflag, n, hn, rfl⟩ | ⟨hmismatch, rfl⟩
    · exact .programLayout f _ hline htype hflag
    · exact .plainLayout f _ n hline htype hflag hn
    · exact .mismatchedLayout f _ hline hmismatch
  · exact .cfiInit base size rules b s hb hs hrules
  · exact .cfiDelta address rules a ha hrules

theorem readStack?_of_layout (f : LayoutFields) (line : List Char) (r : Record)
    (hline : f.Writes line) (hr : f.record? = some r) :
    ∃ rest, line = "STACK".toList ++ ' ' :: rest ∧ readStack? rest = some r := by
  obtain ⟨body, rfl, hbody⟩ := (LayoutFields.writes_iff f line).mp hline
  have hread := (read?_layoutReader body r).mpr ⟨f, hbody, hr⟩
  exact ⟨_, rfl, (readStack?_eq_some_iff _ r).mpr (Or.inl ⟨body, rfl, hread⟩)⟩

end Record

section Kinds

variable (line : List Char) (r : Record)

theorem read?_ignored_iff :
    kindOfLine? line = some .ignored ∧ Record.read? .ignored line = some r ↔
      r.Writes line ∧ r.kind = .ignored := by
  have hread : Record.read? .ignored line = some r ↔ Record.ignored = r := Option.some_inj
  have hspace (word : List Char) (hword : word ∈ RecordKind.ignored.keywords) : ' ' ∉ word := by
    simp only [RecordKind.keywords, List.mem_cons, List.not_mem_nil, or_false] at hword
    rcases hword with rfl | rfl | rfl <;> decide
  simp only [hread, kindOfLine?, RecordKind.ofWord?_eq_some_iff, reduceCtorEq, false_and, or_false]
  constructor
  · rintro ⟨hword, rfl⟩
    have hline := (splitAt?_fst_iff _ line (hspace _ hword)).mp rfl
    exact ⟨.ignored _ line hword hline, rfl⟩
  · rintro ⟨hwrites, hkind⟩
    cases hwrites with
    | ignored word line hword hline =>
      rw [(splitAt?_fst_iff word line (hspace word hword)).mpr hline]
      exact ⟨hword, rfl⟩
    | _ => cases hkind

theorem read?_header_iff :
    kindOfLine? line = some .header ∧ Record.read? .header line = some r ↔
      r.Writes line ∧ r.kind = .header := by
  rw [read?_keyword_iff .header "MODULE".toList
    (fun rest => (FieldReader.read? Record.headerReader rest).map .header) rfl (by decide)
    (fun _ => rfl) rfl]
  simp only [Option.map_eq_some_iff, Record.read?_headerReader]
  constructor
  · rintro ⟨_, rfl, _, ⟨os, cpu, id, name, rfl, hos, hcpu, hid, hname, rfl⟩, rfl⟩
    exact ⟨.header os cpu id name hos hcpu hid hname, rfl⟩
  · rintro ⟨hwrites, hkind⟩
    cases hwrites with
    | header os cpu id name hos hcpu hid hname =>
      exact ⟨_, rfl, _, ⟨os, cpu, id, name, rfl, hos, hcpu, hid, hname, rfl⟩, rfl⟩
    | _ => cases hkind

theorem read?_file_iff :
    kindOfLine? line = some .file ∧ Record.read? .file line = some r ↔
      r.Writes line ∧ r.kind = .file := by
  rw [read?_keyword_iff .file "FILE".toList
    (fun rest => (FieldReader.read? Record.fileReader rest).map fun p => .file p.1 p.2) rfl
    (by decide) (fun _ => rfl) rfl]
  simp only [Option.map_eq_some_iff, Record.read?_fileReader, Prod.exists]
  constructor
  · rintro ⟨_, rfl, n, _, ⟨number, name, rfl, hn, hname, rfl⟩, rfl⟩
    exact ⟨.file number name n hn hname, rfl⟩
  · rintro ⟨hwrites, hkind⟩
    cases hwrites with
    | file number name n hn hname => exact ⟨_, rfl, n, _, ⟨number, name, rfl, hn, hname, rfl⟩, rfl⟩
    | _ => cases hkind

theorem read?_function_iff :
    kindOfLine? line = some .function ∧ Record.read? .function line = some r ↔
      r.Writes line ∧ r.kind = .function := by
  rw [read?_keyword_iff .function "FUNC".toList
    (fun rest => (FieldReader.read? Record.functionReader rest).map .function) rfl (by decide)
    (fun _ => rfl) rfl]
  simp only [Option.map_eq_some_iff, Record.read?_functionReader]
  have hjoin (mark : List (List Char)) (base size parameterSize name : List Char) :
      joinTokens (["FUNC".toList] ++ mark ++ [base, size, parameterSize, name]) =
        "FUNC".toList ++ ' ' :: joinTokens (mark ++ [base, size, parameterSize, name]) :=
    joinTokens_cons _ _ (List.append_ne_nil_of_right_ne_nil _ (List.cons_ne_nil _ _))
  constructor
  · rintro ⟨_, rfl, _, ⟨mark, base, size, parameterSize, name, b, s, p, hmark, rfl, hb, hs, hp, rfl⟩,
      rfl⟩
    rw [← hjoin]
    exact ⟨.function mark base size parameterSize name b s p hmark hb hs hp, rfl⟩
  · rintro ⟨hwrites, hkind⟩
    cases hwrites with
    | function mark base size parameterSize name b s p hmark hb hs hp =>
      exact ⟨_, hjoin mark _ _ _ _, _,
        ⟨mark, base, size, parameterSize, name, b, s, p, hmark, rfl, hb, hs, hp, rfl⟩, rfl⟩
    | _ => cases hkind

theorem read?_publicSymbol_iff :
    kindOfLine? line = some .publicSymbol ∧ Record.read? .publicSymbol line = some r ↔
      r.Writes line ∧ r.kind = .publicSymbol := by
  rw [read?_keyword_iff .publicSymbol "PUBLIC".toList
    (fun rest => (FieldReader.read? Record.publicReader rest).map fun p => .publicSymbol p.1 p.2) rfl
    (by decide) (fun _ => rfl) rfl]
  simp only [Option.map_eq_some_iff, Record.read?_publicReader, Prod.exists]
  have hjoin (mark : List (List Char)) (address parameterSize name : List Char) :
      joinTokens (["PUBLIC".toList] ++ mark ++ [address, parameterSize, name]) =
        "PUBLIC".toList ++ ' ' :: joinTokens (mark ++ [address, parameterSize, name]) :=
    joinTokens_cons _ _ (List.append_ne_nil_of_right_ne_nil _ (List.cons_ne_nil _ _))
  constructor
  · rintro ⟨_, rfl, a, _, ⟨mark, address, parameterSize, name, p, hmark, rfl, ha, hp, rfl⟩, rfl⟩
    rw [← hjoin]
    exact ⟨.publicSymbol mark address parameterSize name a p hmark ha hp, rfl⟩
  · rintro ⟨hwrites, hkind⟩
    cases hwrites with
    | publicSymbol mark address parameterSize name a p hmark ha hp =>
      exact ⟨_, hjoin mark _ _ _, a, _,
        ⟨mark, address, parameterSize, name, p, hmark, rfl, ha, hp, rfl⟩, rfl⟩
    | _ => cases hkind

/-- The three shapes of a layout record and the two of a call-frame record. -/
theorem read?_stack_iff :
    kindOfLine? line = some .stack ∧ Record.read? .stack line = some r ↔
      r.Writes line ∧ r.kind = .stack := by
  rw [read?_keyword_iff .stack "STACK".toList Record.readStack? rfl (by decide) (fun _ => rfl) rfl]
  constructor
  · rintro ⟨rest, rfl, hrest⟩
    exact ⟨Record.writes_of_readStack? rest r hrest, Record.kind_of_readStack? rest r hrest⟩
  · rintro ⟨hwrites, hkind⟩
    cases hwrites with
    | programLayout f line hline htype hflag =>
      have hr := (LayoutFields.record?_eq_some_iff f _).mpr (Or.inl ⟨htype, hflag, rfl⟩)
      exact Record.readStack?_of_layout f line _ hline hr
    | plainLayout f line n hline htype hflag hlast =>
      have hr := (LayoutFields.record?_eq_some_iff f _).mpr
        (Or.inr (Or.inl ⟨htype, hflag, n, hlast, rfl⟩))
      exact Record.readStack?_of_layout f line _ hline hr
    | mismatchedLayout f line hline hmismatch =>
      have hr := (LayoutFields.record?_eq_some_iff f _).mpr (Or.inr (Or.inr ⟨hmismatch, rfl⟩))
      exact Record.readStack?_of_layout f line _ hline hr
    | cfiInit base size rules b s hb hs hrules =>
      have hread := (Record.read?_cfiInitReader _ _).mpr
        ⟨base, size, rules, b, s, rfl, hb, hs, hrules, rfl⟩
      exact ⟨_, rfl, (Record.readStack?_eq_some_iff _ _).mpr (Or.inr (Or.inl ⟨_, rfl, hread⟩))⟩
    | cfiDelta address rules a ha hrules =>
      have hread := (Record.read?_cfiDeltaReader _ _).mpr ⟨address, rules, a, rfl, ha, hrules, rfl⟩
      exact ⟨_, rfl, (Record.readStack?_eq_some_iff _ _).mpr (Or.inr (Or.inr ⟨_, rfl, hread⟩))⟩
    | _ => cases hkind

/-- Whatever can be read as a line record announces one, for its first word is its address. -/
theorem read?_line_iff :
    kindOfLine? line = some .line ∧ Record.read? .line line = some r ↔
      r.Writes line ∧ r.kind = .line := by
  have hread : Record.read? .line line = some r ↔
      FieldReader.read? Record.lineReader line = some r := Iff.rfl
  rw [hread, Record.read?_lineReader]
  constructor
  · rintro ⟨-, base, size, number, file, b, s, n, f, rfl, hb, hs, hn, hf, rfl⟩
    exact ⟨.line base size number file b s n f hb hs hn hf, rfl⟩
  · rintro ⟨hwrites, hkind⟩
    cases hwrites with
    | line base size number file b s n f hb hs hn hf =>
      refine ⟨?_, base, size, number, file, b, s, n, f, rfl, hb, hs, hn, hf, rfl⟩
      rw [kindOfLine?, joinTokens_cons _ _ (List.cons_ne_nil _ _),
        splitAt?_append_cons ' ' base _ hb.space_not_mem, RecordKind.ofWord?_eq_some_iff]
      exact Or.inr ⟨rfl, hb.all_isHexDigit⟩
    | _ => cases hkind

/-- A line is read as a record exactly if it writes that record. -/
theorem recordOfLine?_eq_some_iff : recordOfLine? line = some r ↔ r.Writes line := by
  have hkind (kind : RecordKind) :
      kindOfLine? line = some kind ∧ Record.read? kind line = some r ↔
        r.Writes line ∧ r.kind = kind := by
    cases kind with
    | ignored => exact read?_ignored_iff line r
    | header => exact read?_header_iff line r
    | file => exact read?_file_iff line r
    | function => exact read?_function_iff line r
    | publicSymbol => exact read?_publicSymbol_iff line r
    | stack => exact read?_stack_iff line r
    | line => exact read?_line_iff line r
  rw [recordOfLine?, Option.bind_eq_some_iff]
  simp only [hkind]
  constructor
  · rintro ⟨-, h, -⟩
    exact h
  · intro h
    exact ⟨r.kind, h, rfl⟩

end Kinds

end Symbolication.SymbolFile
