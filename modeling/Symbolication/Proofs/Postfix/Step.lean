import Symbolication.Postfix.Evaluator

/-!
What a step of the evaluator does when it succeeds: which operands it takes from the stack, that they
have values, and what it leaves in their place.
-/

namespace Symbolication.Postfix

theorem bind_eq_ok_iff {ε α β : Type} (x : Except ε α) (f : α → Except ε β) (b : β) :
    (x >>= f) = .ok b ↔ ∃ a, x = .ok a ∧ f a = .ok b := by
  cases x with
  | error err =>
    constructor
    · intro h
      cases h
    · intro h
      obtain ⟨a, ha, -⟩ := h
      cases ha
  | ok a =>
    constructor
    · intro h
      exact ⟨a, rfl, h⟩
    · intro h
      obtain ⟨a', ha, hb⟩ := h
      cases ha
      exact hb

theorem bind_eq_error_iff {ε α β : Type} (x : Except ε α) (f : α → Except ε β) (err : ε) :
    (x >>= f) = .error err ↔ x = .error err ∨ ∃ a, x = .ok a ∧ f a = .error err := by
  cases x with
  | error e =>
    constructor
    · intro h
      cases h
      exact Or.inl rfl
    · rintro (h | ⟨a, ha, -⟩)
      · cases h
        rfl
      · cases ha
  | ok a =>
    constructor
    · intro h
      exact Or.inr ⟨a, rfl, h⟩
    · rintro (h | ⟨a', ha, hb⟩)
      · cases h
      · cases ha
        exact hb

theorem bind_congr_of_ok {ε α β : Type} {x : Except ε α} {f g : α → Except ε β}
    (h : ∀ a, x = .ok a → f a = g a) : x >>= f = x >>= g := by
  cases x with
  | error err => rfl
  | ok a => exact h a rfl

namespace Evaluator

variable (e : Evaluator) (registers : Registers)

theorem pop_eq_ok_iff (operator : String) (stack rest : List Operand) (v : UInt64) :
    e.pop registers operator stack = .ok (v, rest) ↔
      ∃ o, stack = o :: rest ∧ e.resolve registers o = .ok v := by
  cases stack with
  | nil =>
    constructor
    · intro h
      cases h
    · intro h
      obtain ⟨o, hstack, -⟩ := h
      cases hstack
  | cons o os =>
    rw [pop, bind_eq_ok_iff]
    constructor
    · intro h
      obtain ⟨u, hu, hpair⟩ := h
      cases hpair
      exact ⟨o, rfl, hu⟩
    · intro h
      obtain ⟨o', hstack, hv⟩ := h
      cases hstack
      exact ⟨v, hv, rfl⟩

theorem step_binary_eq_ok_iff (op : BinaryOp) (stack next : List Operand) :
    e.step registers stack (.binary op) = .ok next ↔
      ∃ b a rest vb va v, stack = b :: a :: rest ∧ e.resolve registers b = .ok vb ∧
        e.resolve registers a = .ok va ∧ op.result? va vb = some v ∧
          next = .value (e.width.truncate v) :: rest := by
  rw [step, bind_eq_ok_iff]
  constructor
  · intro h
    obtain ⟨⟨vb, below⟩, hb, h⟩ := h
    obtain ⟨⟨va, rest⟩, ha, h⟩ := (bind_eq_ok_iff _ _ _).mp h
    obtain ⟨b, hstack, hvb⟩ := (e.pop_eq_ok_iff registers _ _ _ _).mp hb
    obtain ⟨a, hbelow, hva⟩ := (e.pop_eq_ok_iff registers _ _ _ _).mp ha
    dsimp only at h
    cases hv : op.result? va vb with
    | none =>
      rw [hv] at h
      cases h
    | some v =>
      rw [hv] at h
      cases h
      exact ⟨b, a, rest, vb, va, v, by rw [hstack, hbelow], hvb, hva, hv, rfl⟩
  · intro h
    obtain ⟨b, a, rest, vb, va, v, hstack, hvb, hva, hv, hnext⟩ := h
    refine ⟨(vb, a :: rest), (e.pop_eq_ok_iff registers _ _ _ _).mpr ⟨b, hstack, hvb⟩, ?_⟩
    refine (bind_eq_ok_iff _ _ _).mpr ⟨(va, rest), ?_, ?_⟩
    · exact (e.pop_eq_ok_iff registers _ _ _ _).mpr ⟨a, rfl, hva⟩
    · dsimp only
      rw [hv, hnext]
      rfl

theorem step_dereference_eq_ok_iff (stack next : List Operand) :
    e.step registers stack .dereference = .ok next ↔
      ∃ o rest address v, stack = o :: rest ∧ e.resolve registers o = .ok address ∧
        e.readWord? address = some v ∧ next = .value v :: rest := by
  rw [step, bind_eq_ok_iff]
  constructor
  · intro h
    obtain ⟨⟨address, rest⟩, ho, h⟩ := h
    obtain ⟨o, hstack, haddress⟩ := (e.pop_eq_ok_iff registers _ _ _ _).mp ho
    dsimp only at h
    cases hv : e.readWord? address with
    | none =>
      rw [hv] at h
      cases h
    | some v =>
      rw [hv] at h
      cases h
      exact ⟨o, rest, address, v, hstack, haddress, hv, rfl⟩
  · intro h
    obtain ⟨o, rest, address, v, hstack, haddress, hv, hnext⟩ := h
    refine ⟨(address, rest), (e.pop_eq_ok_iff registers _ _ _ _).mpr ⟨o, hstack, haddress⟩, ?_⟩
    dsimp only
    rw [hv, hnext]
    rfl

theorem runExpression_cons (stack : List Operand) (tok : Token) (ts : List Token) :
    e.runExpression registers stack (tok :: ts) =
      e.step registers stack tok >>= fun next => e.runExpression registers next ts := rfl

theorem single_eq_ok_iff (stack : List Operand) (v : UInt64) :
    e.single registers stack = .ok v ↔ ∃ o, stack = [o] ∧ e.resolve registers o = .ok v := by
  constructor
  · intro h
    unfold single at h
    split at h
    · exact ⟨_, rfl, h⟩
    · cases h
  · intro h
    obtain ⟨o, hstack, ho⟩ := h
    rw [hstack]
    exact ho

/-- Tokens have a value if they leave one operand, and it is the value of this operand. -/
theorem valueOfTokens_eq_ok_iff_single (ts : List Token) (v : UInt64) :
    e.valueOfTokens registers ts = .ok v ↔
      ∃ o, e.runExpression registers [] ts = .ok [o] ∧ e.resolve registers o = .ok v := by
  rw [valueOfTokens, bind_eq_ok_iff]
  constructor
  · intro h
    obtain ⟨stack, hrun, hsingle⟩ := h
    obtain ⟨o, hstack, ho⟩ := (e.single_eq_ok_iff registers stack v).mp hsingle
    rw [hstack] at hrun
    exact ⟨o, hrun, ho⟩
  · intro h
    obtain ⟨o, hrun, ho⟩ := h
    exact ⟨[o], hrun, (e.single_eq_ok_iff registers [o] v).mpr ⟨o, rfl, ho⟩⟩

end Evaluator

end Symbolication.Postfix
