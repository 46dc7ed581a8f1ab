import Symbolication.OrderedMap.Lemmas
import Symbolication.Proofs.Postfix.Value

/-!
Evaluation without one of the registers. Nothing changes unless an operator asks for the value of that
register; then evaluation fails, and that is the failure. An expression that mentions the register may
fail in another way before it comes to that, but it has no value.
-/

namespace Symbolication.Postfix

section Results

variable {α β : Type}

/-- The results are the same unless the first is the failure `err`. -/
def SameUnless (err : EvalError) (x y : Except EvalError α) : Prop := x = .error err ∨ x = y

theorem SameUnless.refl (err : EvalError) (x : Except EvalError α) : SameUnless err x x := Or.inr rfl

theorem SameUnless.bind {err : EvalError} {x y : Except EvalError α}
    {f g : α → Except EvalError β} (h : SameUnless err x y) (hf : ∀ a, SameUnless err (f a) (g a)) :
    SameUnless err (x >>= f) (y >>= g) := by
  rcases h with hx | rfl
  · rw [hx]
    exact Or.inl rfl
  · cases x with
    | error other => exact Or.inr rfl
    | ok a => exact hf a

/-- The result is not the failure `err`, and a value has the property `P`. -/
def Avoids (err : EvalError) (x : Except EvalError α) (P : α → Prop) : Prop :=
  x ≠ .error err ∧ ∀ a, x = .ok a → P a

theorem Avoids.ok {err : EvalError} {a : α} {P : α → Prop} (h : P a) : Avoids err (.ok a) P := by
  refine ⟨nofun, ?_⟩
  intro b hb
  cases hb
  exact h

theorem Avoids.error {err other : EvalError} {P : α → Prop} (h : other ≠ err) :
    Avoids err (.error other) P := by
  refine ⟨?_, nofun⟩
  intro heq
  cases heq
  exact h rfl

theorem Avoids.bind {err : EvalError} {x : Except EvalError α} {f : α → Except EvalError β}
    {P : α → Prop} {Q : β → Prop} (h : Avoids err x P) (hf : ∀ a, P a → Avoids err (f a) Q) :
    Avoids err (x >>= f) Q := by
  obtain ⟨hne, hvalue⟩ := h
  cases x with
  | error other => exact Avoids.error fun heq => hne (congrArg _ heq)
  | ok a => exact hf a (hvalue a rfl)

end Results

namespace Evaluator

variable (e : Evaluator) (registers : Registers) (name : String)

/-! One run without the register beside one with it. -/

theorem sameUnless_resolve (o : Operand) :
    SameUnless (.unknownIdentifier name) (e.resolve (registers.erase name) o)
      (e.resolve registers o) := by
  cases o with
  | value v => exact SameUnless.refl _ _
  | identifier other =>
    rw [resolve, resolve, OrderedMap.get?_erase]
    by_cases hother : other = name
    · rw [if_pos hother, hother]
      exact Or.inl rfl
    · rw [if_neg hother]
      exact SameUnless.refl _ _

theorem sameUnless_pop (operator : String) (stack : List Operand) :
    SameUnless (.unknownIdentifier name) (e.pop (registers.erase name) operator stack)
      (e.pop registers operator stack) := by
  cases stack with
  | nil => exact SameUnless.refl _ _
  | cons o stack =>
    exact (e.sameUnless_resolve registers name o).bind fun _ => SameUnless.refl _ _

theorem sameUnless_step (stack : List Operand) (tok : Token) :
    SameUnless (.unknownIdentifier name) (e.step (registers.erase name) stack tok)
      (e.step registers stack tok) := by
  cases tok with
  | binary op =>
    refine (e.sameUnless_pop registers name _ stack).bind fun b => ?_
    exact (e.sameUnless_pop registers name _ b.2).bind fun _ => SameUnless.refl _ _
  | dereference =>
    exact (e.sameUnless_pop registers name _ stack).bind fun _ => SameUnless.refl _ _
  | assign | number | identifier | malformed => exact SameUnless.refl _ _

theorem sameUnless_runExpression (stack : List Operand) (ts : List Token) :
    SameUnless (.unknownIdentifier name) (e.runExpression (registers.erase name) stack ts)
      (e.runExpression registers stack ts) := by
  induction ts generalizing stack with
  | nil => exact SameUnless.refl _ _
  -- Up to here both runs have the same stack, or the one without the register has failed.
  | cons tok ts ih => exact (e.sameUnless_step registers name stack tok).bind fun next => ih next

/-- Without a register the value is the same, unless the register is asked for. -/
theorem sameUnless_value (expression : String) :
    SameUnless (.unknownIdentifier name) (e.value (registers.erase name) expression)
      (e.value registers expression) := by
  refine (e.sameUnless_runExpression registers name [] _).bind fun stack => ?_
  unfold single
  split
  · exact e.sameUnless_resolve registers name _
  · exact SameUnless.refl _ _

/-! A register that is there, or that is not mentioned, is never missed. -/

/-- The operand is no obstacle on the part of `name`. -/
def Settled (o : Operand) : Prop := o = .identifier name → (registers.get? name).isSome = true

theorem avoids_resolve (o : Operand) (h : Settled registers name o) :
    Avoids (.unknownIdentifier name) (e.resolve registers o) fun _ => True := by
  cases o with
  | value v => exact Avoids.ok trivial
  | identifier other =>
    rw [resolve]
    cases hget : registers.get? other with
    | some v => exact Avoids.ok trivial
    | none =>
      -- It is this register that is missed, so it cannot be one that is there.
      refine Avoids.error fun heq => ?_
      obtain rfl : other = name := EvalError.unknownIdentifier.inj heq
      have hsome := h rfl
      rw [hget] at hsome
      cases hsome

theorem avoids_pop (operator : String) (stack : List Operand)
    (h : ∀ o ∈ stack, Settled registers name o) :
    Avoids (.unknownIdentifier name) (e.pop registers operator stack) fun p =>
      ∀ o ∈ p.2, Settled registers name o := by
  cases stack with
  | nil => exact Avoids.error nofun
  | cons o stack =>
    obtain ⟨ho, hstack⟩ := List.forall_mem_cons.mp h
    exact (e.avoids_resolve registers name o ho).bind fun _ _ => Avoids.ok hstack

theorem avoids_step (stack : List Operand) (tok : Token)
    (hstack : ∀ o ∈ stack, Settled registers name o)
    (htok : tok = .identifier name → (registers.get? name).isSome = true) :
    Avoids (.unknownIdentifier name) (e.step registers stack tok) fun next =>
      ∀ o ∈ next, Settled registers name o := by
  -- A value on the stack is never in the way.
  have hvalue (v : UInt64) (rest : List Operand) (hrest : ∀ o ∈ rest, Settled registers name o) :
      ∀ o ∈ Operand.value v :: rest, Settled registers name o :=
    List.forall_mem_cons.mpr ⟨nofun, hrest⟩
  cases tok with
  | binary op =>
    refine (e.avoids_pop registers name _ stack hstack).bind fun b hb => ?_
    refine (e.avoids_pop registers name _ b.2 hb).bind fun a ha => ?_
    dsimp only
    split
    · exact Avoids.ok (hvalue _ _ ha)
    · exact Avoids.error nofun
  | dereference =>
    refine (e.avoids_pop registers name _ stack hstack).bind fun p hp => ?_
    dsimp only
    split
    · exact Avoids.ok (hvalue _ _ hp)
    · exact Avoids.error nofun
  | number v => exact Avoids.ok (hvalue v stack hstack)
  | identifier other =>
    refine Avoids.ok (List.forall_mem_cons.mpr ⟨fun heq => htok ?_, hstack⟩)
    rw [Operand.identifier.inj heq]
  | assign => exact Avoids.error nofun
  | malformed text => exact Avoids.error nofun

theorem avoids_runExpression (stack : List Operand) (ts : List Token)
    (hstack : ∀ o ∈ stack, Settled registers name o)
    (hts : .identifier name ∈ ts → (registers.get? name).isSome = true) :
    Avoids (.unknownIdentifier name) (e.runExpression registers stack ts) fun next =>
      ∀ o ∈ next, Settled registers name o := by
  induction ts generalizing stack with
  | nil => exact Avoids.ok hstack
  | cons tok ts ih =>
    have htok (h : tok = .identifier name) : (registers.get? name).isSome = true :=
      hts (h ▸ List.mem_cons_self)
    refine (e.avoids_step registers name stack tok hstack htok).bind fun next hnext => ?_
    exact ih next hnext fun h => hts (List.mem_cons_of_mem _ h)

/-- An expression never fails for want of a register that is there, or that it does not mention. -/
theorem value_ne_unknownIdentifier (expression : String)
    (h : .identifier name ∈ tokens expression → (registers.get? name).isSome = true) :
    e.value registers expression ≠ .error (.unknownIdentifier name) := by
  have hrun := e.avoids_runExpression registers name [] (tokens expression)
    (fun _ ho => absurd ho List.not_mem_nil) h
  refine (Avoids.bind (Q := fun _ => True) hrun fun stack hstack => ?_).1
  unfold single
  split
  · exact e.avoids_resolve registers name _ (hstack _ List.mem_cons_self)
  · exact Avoids.error nofun

end Evaluator

/-- A tree with a register that is not there has no value. -/
theorem Expr.value?_of_unbound (e : Evaluator) (registers : Registers) (name : String)
    (hname : registers.get? name = none) (t : Expr) (h : .identifier name ∈ t.tokens) :
    t.value? e registers = none := by
  induction t with
  | number v => cases List.mem_singleton.mp h
  | identifier other =>
    cases List.mem_singleton.mp h
    rw [value?, hname]
    rfl
  | binary op l r ihl ihr =>
    rw [tokens, List.append_assoc] at h
    rcases List.mem_append.mp h with hl | h
    · rw [value?, ihl hl]
      rfl
    rcases List.mem_append.mp h with hr | hop
    · rw [value?, ihr hr]
      cases l.value? e registers <;> rfl
    · cases List.mem_singleton.mp hop
  | dereference t ih =>
    rcases List.mem_append.mp h with ht | hop
    · rw [value?, ih ht]
      rfl
    · cases List.mem_singleton.mp hop

/-- An expression that mentions a register that is not there has no value. -/
theorem Evaluator.value_ne_ok_of_unbound (e : Evaluator) (registers : Registers) (name : String)
    (hname : registers.get? name = none) (expression : String)
    (h : .identifier name ∈ Postfix.tokens expression) (v : UInt64) :
    e.value registers expression ≠ .ok v := by
  intro hvalue
  -- An expression with a value is a tree, and the register stands at one of its leaves.
  obtain ⟨t, ht, hv⟩ := (e.valueOfTokens_eq_ok_iff registers _ v).mp hvalue
  rw [ht] at h
  rw [t.value?_of_unbound e registers name hname h] at hv
  cases hv

end Symbolication.Postfix
