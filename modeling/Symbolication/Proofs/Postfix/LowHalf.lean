import Mathlib.Control.Monad.Basic
import Mathlib.Data.List.Forall2
import Symbolication.Proofs.Postfix.Value

/-!
Runs side by side on words that have the same low half. The evaluators may differ in width, and the
registers and the operands in the high halves of their values. What the two resolve has the same low
half, whichever of the words are cut to size and when; so expressions on 32-bit words are those on 64-bit
words modulo `2 ^ 32`, as long as no operator looks at more than the low halves.
-/

namespace Symbolication.Postfix

section Results

variable {α β α' β' : Type}

/-- Both results are values and `R` relates them, or both are the same failure. -/
inductive Alike (R : α → β → Prop) : Except EvalError α → Except EvalError β → Prop where
  | ok (a : α) (b : β) (h : R a b) : Alike R (.ok a) (.ok b)
  | error (err : EvalError) : Alike R (.error err) (.error err)

theorem Alike.bind {R : α → β → Prop} {S : α' → β' → Prop} {x : Except EvalError α}
    {y : Except EvalError β} {f : α → Except EvalError α'} {g : β → Except EvalError β'}
    (h : Alike R x y) (hf : ∀ a b, R a b → Alike S (f a) (g b)) : Alike S (x >>= f) (y >>= g) := by
  cases h with
  | ok a b hab => exact hf a b hab
  | error err => exact .error err

theorem Alike.exists_ok_iff {R : α → β → Prop} {x : Except EvalError α} {y : Except EvalError β}
    (h : Alike R x y) : (∃ a, x = .ok a) ↔ ∃ b, y = .ok b := by
  cases h with
  | ok a b hab => exact iff_of_true ⟨a, rfl⟩ ⟨b, rfl⟩
  | error err => exact iff_of_false (by simp) (by simp)

theorem Alike.error_iff {R : α → β → Prop} {x : Except EvalError α} {y : Except EvalError β}
    (h : Alike R x y) (err : EvalError) : x = .error err ↔ y = .error err := by
  cases h with
  | ok a b hab => exact iff_of_false nofun nofun
  | error failure => simp

theorem Alike.of_ok {R : α → β → Prop} {x : Except EvalError α} {y : Except EvalError β} {a : α} {b : β}
    (h : Alike R x y) (hx : x = .ok a) (hy : y = .ok b) : R a b := by
  cases h with
  | ok a' b' hab =>
    cases hx
    cases hy
    exact hab
  | error err => cases hx

/-- Alike results are equal if the values that are related are. -/
theorem Alike.eq {R : α → α → Prop} {x y : Except EvalError α} (h : Alike R x y)
    (heq : ∀ a b, x = .ok a → y = .ok b → R a b → a = b) : x = y := by
  cases h with
  | ok a b hab => rw [heq a b rfl rfl hab]
  | error err => rfl

end Results

/-- The words are equal modulo `2 ^ 32`. -/
def SameLowHalf (v w : UInt64) : Prop := v.toNat % UInt32.size = w.toNat % UInt32.size

theorem sameLowHalf_iff (v w : UInt64) : SameLowHalf v w ↔ v.toUInt32 = w.toUInt32 := by
  rw [← UInt32.toNat_inj, UInt64.toNat_toUInt32, UInt64.toNat_toUInt32]
  rfl

/-- Cutting a word to size keeps its low half. -/
theorem Width.sameLowHalf_truncate (w : Width) (v : UInt64) : SameLowHalf (w.truncate v) v := by
  have hdvd : UInt32.size ∣ w.modulus := by cases w <;> decide
  rw [SameLowHalf, toNat_truncate, Nat.mod_mod_of_dvd _ hdvd]

/-- Addition, subtraction, multiplication and alignment see no more than low halves in the low half of
their result. -/
theorem BinaryOp.result?_sameLowHalf (op : BinaryOp) (hdiv : op ≠ .div) (hmod : op ≠ .mod)
    (a b c d : UInt64) (ha : SameLowHalf a c) (hb : SameLowHalf b d) :
    ∃ v w, op.result? a b = some v ∧ op.result? c d = some w ∧ SameLowHalf v w := by
  simp only [sameLowHalf_iff] at ha hb ⊢
  cases op with
  | add => exact ⟨_, _, rfl, rfl, by rw [UInt64.toUInt32_add, UInt64.toUInt32_add, ha, hb]⟩
  | sub => exact ⟨_, _, rfl, rfl, by rw [UInt64.toUInt32_sub, UInt64.toUInt32_sub, ha, hb]⟩
  | mul => exact ⟨_, _, rfl, rfl, by rw [UInt64.toUInt32_mul, UInt64.toUInt32_mul, ha, hb]⟩
  | align =>
    refine ⟨_, _, rfl, rfl, ?_⟩
    rw [UInt64.toUInt32_and, UInt64.toUInt32_and, UInt64.toUInt32_neg, UInt64.toUInt32_neg, ha, hb]
  | div => exact absurd rfl hdiv
  | mod => exact absurd rfl hmod

/-- Maps with the same names, under which the values are equal modulo `2 ^ 32`. -/
def SameLowHalves (registers others : Registers) : Prop :=
  ∀ name, (registers.get? name).map (fun v => v.toNat % UInt32.size) =
    (others.get? name).map fun v => v.toNat % UInt32.size

/-- Operands that are the same name, or values with the same low half. -/
inductive SameOperand : Operand → Operand → Prop where
  | value (v w : UInt64) (h : SameLowHalf v w) : SameOperand (.value v) (.value w)
  | identifier (name : String) : SameOperand (.identifier name) (.identifier name)

namespace Evaluator

variable (e f : Evaluator) {registers others : Registers} (hregisters : SameLowHalves registers others)

include hregisters

theorem resolve_alike {o p : Operand} (h : SameOperand o p) :
    Alike SameLowHalf (e.resolve registers o) (f.resolve others p) := by
  have htruncate (v w : UInt64) (hvw : SameLowHalf v w) :
      SameLowHalf (e.width.truncate v) (f.width.truncate w) := by
    have hv := e.width.sameLowHalf_truncate v
    have hw := f.width.sameLowHalf_truncate w
    exact (hv.trans hvw).trans hw.symm
  cases h with
  | value v w hvw => exact .ok _ _ (htruncate v w hvw)
  | identifier name =>
    have hname := hregisters name
    rw [resolve, resolve]
    cases hv : registers.get? name with
    | none =>
      rw [hv, Option.map_none] at hname
      rw [Option.map_eq_none_iff.mp hname.symm]
      exact .error _
    | some v =>
      rw [hv, Option.map_some] at hname
      obtain ⟨w, hw, hvw⟩ := Option.map_eq_some_iff.mp hname.symm
      rw [hw]
      exact .ok _ _ (htruncate v w hvw.symm)

theorem pop_alike (operator : String) {stack other : List Operand}
    (h : List.Forall₂ SameOperand stack other) :
    Alike (fun p q => SameLowHalf p.1 q.1 ∧ List.Forall₂ SameOperand p.2 q.2)
      (e.pop registers operator stack) (f.pop others operator other) := by
  cases h with
  | nil => exact .error _
  | cons ho hrest =>
    apply (e.resolve_alike f hregisters ho).bind
    intro v w hvw
    exact .ok _ _ ⟨hvw, hrest⟩

/-- A token that neither divides nor reads memory does the same on both stacks. -/
theorem step_alike {stack other : List Operand} (h : List.Forall₂ SameOperand stack other)
    (tok : Token) (hread : tok ≠ .dereference) (hdiv : tok ≠ .binary .div)
    (hmod : tok ≠ .binary .mod) :
    Alike (List.Forall₂ SameOperand) (e.step registers stack tok) (f.step others other tok) := by
  cases tok with
  | number v => exact .ok _ _ (.cons (.value v v rfl) h)
  | identifier name => exact .ok _ _ (.cons (.identifier name) h)
  | assign => exact .error _
  | malformed text => exact .error _
  | dereference => exact absurd rfl hread
  | binary op =>
    have hop : op ≠ .div := fun heq => hdiv (by rw [heq])
    have hop' : op ≠ .mod := fun heq => hmod (by rw [heq])
    apply (e.pop_alike f hregisters _ h).bind
    intro right right' hright
    apply (e.pop_alike f hregisters _ hright.2).bind
    intro left left' hleft
    obtain ⟨v, w, hv, hw, hvw⟩ :=
      op.result?_sameLowHalf hop hop' left.1 right.1 left'.1 right'.1 hleft.1 hright.1
    dsimp only
    rw [hv, hw]
    -- Each result is cut to the width of its own evaluator.
    have hresult : SameLowHalf (e.width.truncate v) (f.width.truncate w) :=
      ((e.width.sameLowHalf_truncate v).trans hvw).trans (f.width.sameLowHalf_truncate w).symm
    exact .ok _ _ (.cons (.value _ _ hresult) hleft.2)

theorem runExpression_alike (ts : List Token)
    (hts : ∀ tok ∈ ts, tok ≠ .dereference ∧ tok ≠ .binary .div ∧ tok ≠ .binary .mod)
    {stack other : List Operand} (h : List.Forall₂ SameOperand stack other) :
    Alike (List.Forall₂ SameOperand) (e.runExpression registers stack ts)
      (f.runExpression others other ts) := by
  induction ts generalizing stack other with
  | nil => exact .ok _ _ h
  | cons tok ts ih =>
    obtain ⟨⟨hread, hdiv, hmod⟩, hrest⟩ := List.forall_mem_cons.mp hts
    apply (e.step_alike f hregisters h tok hread hdiv hmod).bind
    intro next next' hnext
    exact ih hrest hnext

theorem single_alike {stack other : List Operand} (h : List.Forall₂ SameOperand stack other) :
    Alike SameLowHalf (e.single registers stack) (f.single others other) := by
  cases h with
  | nil => exact .error _
  | cons ho hrest =>
    cases hrest with
    | nil => exact e.resolve_alike f hregisters ho
    | cons hnext hlast =>
      simp only [single, List.length_cons, hlast.length_eq]
      exact .error _

/-- Expressions without division, remainder and memory come to values with the same low half, or fail in
the same way. -/
theorem value_alike (expression : String)
    (h : ∀ tok ∈ tokens expression,
      tok ≠ .dereference ∧ tok ≠ .binary .div ∧ tok ≠ .binary .mod) :
    Alike SameLowHalf (e.value registers expression) (f.value others expression) := by
  apply (e.runExpression_alike f hregisters _ h .nil).bind
  intro stack other hstack
  exact e.single_alike f hregisters hstack

omit hregisters

theorem value_lt (expression : String) (v : UInt64) (h : e.value registers expression = .ok v) :
    v.toNat < e.width.modulus := by
  obtain ⟨t, -, hvalue⟩ := (e.valueOfTokens_eq_ok_iff registers _ v).mp h
  exact t.value?_lt e registers _ hvalue

/-- An expression without division, remainder and memory has a value on 32-bit words exactly if it has
one on 64-bit words, which is then reduced modulo `2 ^ 32`. If it has none, both report the same. -/
theorem narrow_value_eq_wide_mod (m n : Memory) (registers : Registers) (expression : String)
    (h : ∀ tok ∈ tokens expression,
      tok ≠ .dereference ∧ tok ≠ .binary .div ∧ tok ≠ .binary .mod) :
    let wide : Evaluator := { memory := m, width := .bits64 }
    let narrow : Evaluator := { memory := n, width := .ofPointerSize 4 }
    ((∃ w, narrow.value registers expression = .ok w) ↔
      ∃ v, wide.value registers expression = .ok v) ∧
    (∀ v w, wide.value registers expression = .ok v → narrow.value registers expression = .ok w →
      w.toNat = v.toNat % UInt32.size) ∧
    ∀ err, narrow.value registers expression = .error err ↔
      wide.value registers expression = .error err := by
  intro wide narrow
  have hsame : SameLowHalves registers registers := fun _ => rfl
  have halike := narrow.value_alike wide hsame expression h
  refine ⟨halike.exists_ok_iff, ?_, halike.error_iff⟩
  intro v w hv hw
  have hlow : SameLowHalf w v := halike.of_ok hw hv
  have hbound : w.toNat < UInt32.size := narrow.value_lt expression w hw
  calc w.toNat
      = w.toNat % UInt32.size := (Nat.mod_eq_of_lt hbound).symm
    _ = v.toNat % UInt32.size := hlow

/-- A value that 64-bit words hold and 32-bit words wrap, with a register and a literal that do not fit
32 bits, and an expression that fails after its operators. -/
theorem narrow_value_wraps_or_fails :
    let registers : Registers := .ofList [("$rsp", 0xFFFFFFFF00001237)]
    let wide : Evaluator := { memory := .none, width := .bits64 }
    let narrow : Evaluator := { memory := .none, width := .ofPointerSize 4 }
    let wraps := "$rsp 16 @ 0x100000001 * -8 -"
    let fails := "$rsp 1 + $rbp +"
    (∀ tok ∈ tokens wraps, tok ≠ .dereference ∧ tok ≠ .binary .div ∧ tok ≠ .binary .mod) ∧
    (∀ tok ∈ tokens fails, tok ≠ .dereference ∧ tok ≠ .binary .div ∧ tok ≠ .binary .mod) ∧
    wide.value registers wraps = .ok 0x122F00001238 ∧
    (∃ w, narrow.value registers wraps = .ok w ∧ w.toNat = 0x1238) ∧
    narrow.value registers fails = .error (.unknownIdentifier "$rbp") := by
  intro registers wide narrow wraps fails
  have hwraps : ∀ tok ∈ tokens wraps,
      tok ≠ .dereference ∧ tok ≠ .binary .div ∧ tok ≠ .binary .mod := by decide +kernel
  have hfails : ∀ tok ∈ tokens fails,
      tok ≠ .dereference ∧ tok ≠ .binary .div ∧ tok ≠ .binary .mod := by decide +kernel
  have hvalue : wide.value registers wraps = .ok 0x122F00001238 := by decide +kernel
  have hfailure : wide.value registers fails = .error (.unknownIdentifier "$rbp") := by
    decide +kernel
  obtain ⟨hok, hmod, -⟩ := narrow_value_eq_wide_mod .none .none registers wraps hwraps
  obtain ⟨-, -, herror⟩ := narrow_value_eq_wide_mod .none .none registers fails hfails
  obtain ⟨w, hw⟩ := hok.mpr ⟨_, hvalue⟩
  exact ⟨hwraps, hfails, hvalue, ⟨w, hw, hmod _ w hvalue hw⟩, (herror _).mpr hfailure⟩

end Evaluator

end Symbolication.Postfix
