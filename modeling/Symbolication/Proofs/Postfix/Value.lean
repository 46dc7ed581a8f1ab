import Symbolication.Proofs.Postfix.Step
import Symbolication.Proofs.Postfix.Tree

/-!
The value of an expression tree in arithmetic modulo the word size, and the evaluator as its
computation: an expression has a value exactly if its tokens write a tree that has one.
-/

namespace Symbolication.Postfix

/-- The number of values of the width. -/
def Width.modulus : Width → Nat
  | bits32 => UInt32.size
  | bits64 => UInt64.size

/-- The result of an operator on numbers below `m`, modulo `m`; there is none for a zero divisor. -/
def BinaryOp.modular? (m : Nat) : BinaryOp → Nat → Nat → Option Nat
  | add, a, b => some ((a + b) % m)
  | sub, a, b => some ((a + (m - b)) % m)
  | mul, a, b => some (a * b % m)
  | div, a, b => if b = 0 then none else some (a / b)
  | mod, a, b => if b = 0 then none else some (a % b)
  | align, a, b => some (a &&& (m - b) % m)

/-- The number that memory holds at an address, in a word of the evaluator's width. -/
def Evaluator.readNumber? (e : Evaluator) (address : Nat) : Option Nat :=
  match e.width with
  | .bits32 => (e.memory.read32? (.ofNat address)).map UInt32.toNat
  | .bits64 => (e.memory.read64? (.ofNat address)).map UInt64.toNat

/-- The value of a tree: it is undefined where an identifier has no value, a divisor is zero or
memory cannot be read. -/
def Expr.value? (e : Evaluator) (registers : Registers) : Expr → Option Nat
  | number v => some (v.toNat % e.width.modulus)
  | identifier name => (registers.get? name).map fun v => v.toNat % e.width.modulus
  | binary op l r =>
    (l.value? e registers).bind fun a => (r.value? e registers).bind fun b =>
      op.modular? e.width.modulus a b
  | dereference t => (t.value? e registers).bind e.readNumber?

namespace Width

theorem modulus_pos (w : Width) : 0 < w.modulus := by
  cases w <;> decide

theorem modulus_dvd (w : Width) : w.modulus ∣ UInt64.size := by
  cases w <;> decide

theorem toNat_truncate (w : Width) (v : UInt64) : (w.truncate v).toNat = v.toNat % w.modulus := by
  cases w with
  | bits32 =>
    have hmask : (0xFFFFFFFF : UInt64).toNat = UInt32.size - 1 := rfl
    rw [truncate, UInt64.toNat_and, hmask]
    exact Nat.and_two_pow_sub_one_eq_mod v.toNat 32
  | bits64 => exact (Nat.mod_eq_of_lt v.toNat_lt).symm

theorem and_mod (w : Width) (a b : Nat) :
    (a &&& b) % w.modulus = a % w.modulus &&& b % w.modulus := by
  cases w with
  | bits32 => exact Nat.and_mod_two_pow (n := 32)
  | bits64 => exact Nat.and_mod_two_pow (n := 64)

theorem toNat_neg_mod (w : Width) (b : UInt64) (hb : b.toNat < w.modulus) :
    (-b).toNat % w.modulus = (w.modulus - b.toNat) % w.modulus := by
  rw [UInt64.toNat_neg]
  cases w with
  | bits32 =>
    -- The word size divides the number of 64-bit words, and `b` is below it.
    have hsize : UInt64.size = 18446744073709551616 := rfl
    have hmodulus : bits32.modulus = 4294967296 := rfl
    rw [hmodulus] at hb ⊢
    rw [hsize]
    omega
  | bits64 => exact Nat.mod_mod _ _

end Width

namespace BinaryOp

/-- The operators on words are those on numbers, up to the word size. -/
theorem toNat_result? (w : Width) (op : BinaryOp) (a b : UInt64) (ha : a.toNat < w.modulus)
    (hb : b.toNat < w.modulus) :
    (op.result? a b).map (fun v => (w.truncate v).toNat) =
      op.modular? w.modulus a.toNat b.toNat := by
  have hzero : b = 0 ↔ b.toNat = 0 := by
    rw [← UInt64.toNat_inj]
    rfl
  cases op with
  | add =>
    simp only [result?, modular?, Option.map_some, Width.toNat_truncate, UInt64.toNat_add]
    rw [Nat.mod_mod_of_dvd _ w.modulus_dvd]
  | sub =>
    have hneg := w.toNat_neg_mod b hb
    simp only [result?, modular?, Option.map_some, Width.toNat_truncate]
    congr 1
    calc (a - b).toNat % w.modulus
        = (a.toNat + (-b).toNat) % UInt64.size % w.modulus := by
          rw [UInt64.sub_eq_add_neg, UInt64.toNat_add]
      _ = (a.toNat + (-b).toNat) % w.modulus := Nat.mod_mod_of_dvd _ w.modulus_dvd
      _ = (a.toNat + (w.modulus - b.toNat)) % w.modulus := by
          rw [Nat.add_mod, hneg, ← Nat.add_mod]
  | mul =>
    simp only [result?, modular?, Option.map_some, Width.toNat_truncate, UInt64.toNat_mul]
    rw [Nat.mod_mod_of_dvd _ w.modulus_dvd]
  | div =>
    simp only [result?, modular?, hzero]
    split
    · rfl
    · rw [Option.map_some, Width.toNat_truncate, UInt64.toNat_div,
        Nat.mod_eq_of_lt (Nat.lt_of_le_of_lt (Nat.div_le_self _ _) ha)]
  | mod =>
    simp only [result?, modular?, hzero]
    split
    · rfl
    · rw [Option.map_some, Width.toNat_truncate, UInt64.toNat_mod,
        Nat.mod_eq_of_lt (Nat.lt_of_le_of_lt (Nat.mod_le _ _) ha)]
  | align =>
    simp only [result?, modular?, Option.map_some, Width.toNat_truncate, UInt64.toNat_and]
    rw [w.and_mod, w.toNat_neg_mod b hb, Nat.mod_eq_of_lt ha]

theorem modular?_lt (m : Nat) (hm : 0 < m) (op : BinaryOp) (a b n : Nat) (ha : a < m)
    (h : op.modular? m a b = some n) : n < m := by
  cases op with
  | add | sub | mul =>
    cases h
    exact Nat.mod_lt _ hm
  | div =>
    obtain ⟨-, hn⟩ := Option.ite_none_left_eq_some.mp h
    cases hn
    exact Nat.lt_of_le_of_lt (Nat.div_le_self a b) ha
  | mod =>
    obtain ⟨-, hn⟩ := Option.ite_none_left_eq_some.mp h
    cases hn
    exact Nat.lt_of_le_of_lt (Nat.mod_le a b) ha
  | align =>
    cases h
    exact Nat.lt_of_le_of_lt Nat.and_le_left ha

end BinaryOp

namespace Expr

variable (e : Evaluator) (registers : Registers)

/-- The value of a tree is a word of the evaluator's width. -/
theorem value?_lt (t : Expr) (n : Nat) (h : t.value? e registers = some n) :
    n < e.width.modulus := by
  induction t generalizing n with
  | number v =>
    cases h
    exact Nat.mod_lt _ e.width.modulus_pos
  | identifier name =>
    obtain ⟨v, -, rfl⟩ := Option.map_eq_some_iff.mp h
    exact Nat.mod_lt _ e.width.modulus_pos
  | binary op l r ihl ihr =>
    obtain ⟨a, ha, h⟩ := Option.bind_eq_some_iff.mp h
    obtain ⟨b, hb, h⟩ := Option.bind_eq_some_iff.mp h
    exact BinaryOp.modular?_lt _ e.width.modulus_pos op a b n (ihl a ha) h
  | dereference t ih =>
    obtain ⟨a, -, h⟩ := Option.bind_eq_some_iff.mp h
    unfold Evaluator.readNumber? at h
    cases hw : e.width with
    | bits32 =>
      rw [hw] at h
      obtain ⟨v, -, rfl⟩ := Option.map_eq_some_iff.mp h
      exact v.toNat_lt
    | bits64 =>
      rw [hw] at h
      obtain ⟨v, -, rfl⟩ := Option.map_eq_some_iff.mp h
      exact v.toNat_lt

end Expr

namespace Evaluator

variable (e : Evaluator) (registers : Registers)

theorem toNat_readWord? (address : UInt64) :
    (e.readWord? address).map UInt64.toNat = e.readNumber? address.toNat := by
  unfold readWord? readNumber?
  rw [UInt64.ofNat_toNat]
  cases e.width with
  | bits32 =>
    rw [Option.map_map]
    rfl
  | bits64 => rfl

/-- What an operand on the stack stands for: a token that is an operand of its own, or a tree that has
been computed. -/
inductive StandsFor : Operand → Expr → Prop where
  | number (v : UInt64) : StandsFor (.value v) (.number v)
  | identifier (name : String) : StandsFor (.identifier name) (.identifier name)
  | computed (v : UInt64) (t : Expr) (h : t.value? e registers = some v.toNat) :
    StandsFor (.value v) t

theorem resolve_eq_ok_iff (o : Operand) (t : Expr) (h : e.StandsFor registers o t) (v : UInt64) :
    e.resolve registers o = .ok v ↔ t.value? e registers = some v.toNat := by
  cases h with
  | number u =>
    rw [resolve, Expr.value?, Except.ok.injEq, ← UInt64.toNat_inj, Width.toNat_truncate,
      Option.some.injEq]
  | identifier name =>
    rw [resolve, Expr.value?]
    cases registers.get? name with
    | none => simp
    | some u =>
      dsimp only
      rw [Except.ok.injEq, ← UInt64.toNat_inj, Width.toNat_truncate, Option.map_some,
        Option.some.injEq]
  | computed u t hu =>
    have hlt := t.value?_lt e registers _ hu
    rw [resolve, hu, Except.ok.injEq, ← UInt64.toNat_inj, Width.toNat_truncate, Option.some.injEq,
      Nat.mod_eq_of_lt hlt]

theorem resolve_of_value? (o : Operand) (t : Expr) (n : Nat) (h : e.StandsFor registers o t)
    (hn : t.value? e registers = some n) : ∃ v, e.resolve registers o = .ok v := by
  have hlt := Nat.lt_of_lt_of_le (t.value?_lt e registers n hn)
    (Nat.le_of_dvd (by decide) e.width.modulus_dvd)
  refine ⟨UInt64.ofNat n, (e.resolve_eq_ok_iff registers o t h _).mpr ?_⟩
  rw [hn, UInt64.toNat_ofNat_of_lt' hlt]

/-- Operands that stand for trees, one by one. -/
inductive StackStandsFor : List Operand → List Expr → Prop where
  | nil : StackStandsFor [] []
  | cons (o : Operand) (t : Expr) (operands : List Operand) (trees : List Expr)
    (head : e.StandsFor registers o t) (tail : StackStandsFor operands trees) :
    StackStandsFor (o :: operands) (t :: trees)

theorem value?_binary (op : BinaryOp) (a b : Operand) (l r : Expr) (va vb : UInt64)
    (hl : e.StandsFor registers a l) (hr : e.StandsFor registers b r)
    (ha : e.resolve registers a = .ok va) (hb : e.resolve registers b = .ok vb) :
    (Expr.binary op l r).value? e registers =
      (op.result? va vb).map fun v => (e.width.truncate v).toNat := by
  have hva := (e.resolve_eq_ok_iff registers a l hl va).mp ha
  have hvb := (e.resolve_eq_ok_iff registers b r hr vb).mp hb
  have hresult := op.toNat_result? e.width va vb (l.value?_lt e registers _ hva)
    (r.value?_lt e registers _ hvb)
  rw [hresult, Expr.value?, hva, hvb]
  rfl

theorem value?_dereference (o : Operand) (t : Expr) (address : UInt64)
    (h : e.StandsFor registers o t) (ho : e.resolve registers o = .ok address) :
    (Expr.dereference t).value? e registers = (e.readWord? address).map UInt64.toNat := by
  rw [Expr.value?, (e.resolve_eq_ok_iff registers o t h address).mp ho, toNat_readWord?]
  rfl

theorem push?_of_step (stack next : List Operand) (trees : List Expr) (tok : Token)
    (hstack : e.StackStandsFor registers stack trees)
    (h : e.step registers stack tok = .ok next) :
    ∃ trees', Expr.push? trees tok = some trees' ∧ e.StackStandsFor registers next trees' := by
  -- A token that the operands take is one that the trees they stand for take.
  cases tok with
  | number v =>
    cases h
    exact ⟨.number v :: trees, rfl, .cons _ _ _ _ (.number v) hstack⟩
  | identifier name =>
    cases h
    exact ⟨.identifier name :: trees, rfl, .cons _ _ _ _ (.identifier name) hstack⟩
  | binary op =>
    obtain ⟨b, a, rest, vb, va, v, rfl, hvb, hva, hv, rfl⟩ :=
      (e.step_binary_eq_ok_iff registers op stack next).mp h
    cases hstack with
    | cons _ r _ _ hr htail =>
      cases htail with
      | cons _ l _ trees hl htail =>
        have hvalue := e.value?_binary registers op a b l r va vb hl hr hva hvb
        rw [hv] at hvalue
        exact ⟨.binary op l r :: trees, rfl, .cons _ _ _ _ (.computed _ _ hvalue) htail⟩
  | dereference =>
    obtain ⟨o, rest, address, v, rfl, haddress, hv, rfl⟩ :=
      (e.step_dereference_eq_ok_iff registers stack next).mp h
    cases hstack with
    | cons _ t _ trees ht htail =>
      have hvalue := e.value?_dereference registers o t address ht haddress
      rw [hv] at hvalue
      exact ⟨.dereference t :: trees, rfl, .cons _ _ _ _ (.computed _ _ hvalue) htail⟩
  | assign => cases h
  | malformed text => cases h

/-- Tokens that the operands take build trees that the operands left stand for. -/
theorem build?_of_runExpression (stack next : List Operand) (trees : List Expr) (ts : List Token)
    (hstack : e.StackStandsFor registers stack trees)
    (h : e.runExpression registers stack ts = .ok next) :
    ∃ trees', Expr.build? trees ts = some trees' ∧ e.StackStandsFor registers next trees' := by
  induction ts generalizing stack trees with
  | nil =>
    cases h
    exact ⟨trees, rfl, hstack⟩
  | cons tok ts ih =>
    rw [runExpression_cons, bind_eq_ok_iff] at h
    obtain ⟨mid, hstep, hrun⟩ := h
    obtain ⟨trees', hpush, hmid⟩ := e.push?_of_step registers stack mid trees tok hstack hstep
    obtain ⟨trees'', hbuild, hnext⟩ := ih mid trees' hmid hrun
    refine ⟨trees'', ?_, hnext⟩
    rw [Expr.build?_cons, hpush]
    exact hbuild

/-- The tokens of a tree that has a value leave one operand, which stands for the tree, whatever is
on the stack and whatever follows. -/
theorem runExpression_tokens_append (t : Expr) (n : Nat) (stack : List Operand) (rest : List Token)
    (h : t.value? e registers = some n) :
    ∃ o, e.StandsFor registers o t ∧
      e.runExpression registers stack (t.tokens ++ rest) =
        e.runExpression registers (o :: stack) rest := by
  induction t generalizing n stack rest with
  | number v => exact ⟨.value v, .number v, rfl⟩
  | identifier name => exact ⟨.identifier name, .identifier name, rfl⟩
  | binary op l r ihl ihr =>
    obtain ⟨nl, hnl, hn⟩ := Option.bind_eq_some_iff.mp h
    obtain ⟨nr, hnr, hn⟩ := Option.bind_eq_some_iff.mp hn
    -- The operands of `l` and `r` come to lie on the stack, and the operator takes both.
    obtain ⟨a, hl, hrunl⟩ := ihl nl stack (r.tokens ++ (.binary op :: rest)) hnl
    obtain ⟨b, hr, hrunr⟩ := ihr nr (a :: stack) (.binary op :: rest) hnr
    obtain ⟨va, hva⟩ := e.resolve_of_value? registers a l nl hl hnl
    obtain ⟨vb, hvb⟩ := e.resolve_of_value? registers b r nr hr hnr
    have hvalue := e.value?_binary registers op a b l r va vb hl hr hva hvb
    rw [h] at hvalue
    obtain ⟨v, hv, hvn⟩ := Option.map_eq_some_iff.mp hvalue.symm
    have hstep := (e.step_binary_eq_ok_iff registers op (b :: a :: stack) _).mpr
      ⟨b, a, stack, vb, va, v, rfl, hvb, hva, hv, rfl⟩
    refine ⟨.value (e.width.truncate v), .computed _ _ (by rw [h, hvn]), ?_⟩
    rw [Expr.tokens, List.append_assoc, List.append_assoc, List.singleton_append, hrunl, hrunr,
      runExpression_cons, hstep]
    rfl
  | dereference t ih =>
    obtain ⟨nt, hnt, hn⟩ := Option.bind_eq_some_iff.mp h
    obtain ⟨o, ho, hrun⟩ := ih nt stack (.dereference :: rest) hnt
    obtain ⟨address, haddress⟩ := e.resolve_of_value? registers o t nt ho hnt
    have hvalue := e.value?_dereference registers o t address ho haddress
    rw [h] at hvalue
    obtain ⟨v, hv, hvn⟩ := Option.map_eq_some_iff.mp hvalue.symm
    have hstep := (e.step_dereference_eq_ok_iff registers (o :: stack) _).mpr
      ⟨o, stack, address, v, rfl, haddress, hv, rfl⟩
    refine ⟨.value v, .computed _ _ (by rw [h, hvn]), ?_⟩
    rw [Expr.tokens, List.append_assoc, List.singleton_append, hrun, runExpression_cons, hstep]
    rfl

/-- Tokens have a value exactly if they write a tree that has this value. -/
theorem valueOfTokens_eq_ok_iff (ts : List Token) (v : UInt64) :
    e.valueOfTokens registers ts = .ok v ↔
      ∃ t : Expr, ts = t.tokens ∧ t.value? e registers = some v.toNat := by
  rw [valueOfTokens_eq_ok_iff_single]
  constructor
  · intro h
    obtain ⟨o, hrun, ho⟩ := h
    obtain ⟨trees, hbuild, hstack⟩ := e.build?_of_runExpression registers [] [o] [] ts .nil hrun
    -- The one operand left stands for the one tree built.
    cases hstack with
    | cons _ t _ _ ht htail =>
      cases htail
      exact ⟨t, (Expr.build?_eq_singleton_iff ts t).mp hbuild,
        (e.resolve_eq_ok_iff registers o t ht v).mp ho⟩
  · intro h
    obtain ⟨t, hts, hvalue⟩ := h
    obtain ⟨o, ho, hrun⟩ := e.runExpression_tokens_append registers t _ [] [] hvalue
    rw [List.append_nil, ← hts] at hrun
    exact ⟨o, hrun, (e.resolve_eq_ok_iff registers o t ho v).mpr hvalue⟩

/-- An expression evaluates to a word exactly if its tokens write a tree, which is the only one they
write, and the word is the value of this tree modulo the word size. -/
theorem value_eq_ok_iff (expression : String) (v : UInt64) :
    e.value registers expression = .ok v ↔
      ∃ t : Expr, tokens expression = t.tokens ∧
        (∀ u : Expr, tokens expression = u.tokens → u = t) ∧
          t.value? e registers = some v.toNat := by
  rw [value, valueOfTokens_eq_ok_iff]
  constructor
  · intro h
    obtain ⟨t, ht, hvalue⟩ := h
    refine ⟨t, ht, ?_, hvalue⟩
    intro u hu
    exact Expr.tokens_injective u t (hu.symm.trans ht)
  · intro h
    obtain ⟨t, ht, -, hvalue⟩ := h
    exact ⟨t, ht, hvalue⟩

end Evaluator

end Symbolication.Postfix
