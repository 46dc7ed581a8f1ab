import Symbolication.Proofs.Postfix.Step

/-!
The shape of an expression: how many values each token takes, and how many are there for it. It is known
without registers and memory. A token that has what it takes fails by its data alone; a run of such
tokens leaves as many values as the shape says, and any other run fails. So the shape of an expression
decides whether it can have a value, and how many values are left over if there is not one.
-/

namespace Symbolication.Postfix

namespace Token

/-- How many values a token takes from the stack. -/
def arity : Token → Nat
  | binary _ => 2
  | dereference => 1
  | assign | number _ | identifier _ | malformed _ => 0

def isOperand : Token → Bool
  | number _ | identifier _ => true
  | _ => false

def isBinary : Token → Bool
  | binary _ => true
  | _ => false

/-- The tokens that have a place in an expression: no assignment, and no operand that is malformed. -/
def inExpression : Token → Bool
  | assign | malformed _ => false
  | binary _ | dereference | number _ | identifier _ => true

end Token

/-- How many values tokens leave over and above those they find. -/
def surplus (ts : List Token) : Int := ts.countP Token.isOperand - ts.countP Token.isBinary

/-- On a stack of `n` values, each token has its place and finds the values that it takes. -/
def Supplied (n : Nat) (ts : List Token) : Prop :=
  ∀ before tok after, ts = before ++ tok :: after →
    tok.inExpression = true ∧ (tok.arity : Int) ≤ n + surplus before

/-- Each token has its place and finds the values that it takes, and one value is left. -/
structure Balanced (ts : List Token) : Prop where
  supplied : Supplied 0 ts
  single : surplus ts = 1

/-- Failures that registers and memory decide. -/
inductive EvalError.OfData : EvalError → Prop where
  | unknownIdentifier (name : String) : OfData (.unknownIdentifier name)
  | divideByZero : OfData .divideByZero
  | memoryRead (address : Address) : OfData (.memoryRead address)

/-- Failures of a token that has no place or does not find what it takes. -/
inductive EvalError.OfShape : EvalError → Prop where
  | stackUnderflow (operator : String) : OfShape (.stackUnderflow operator)
  | unexpectedAssignment : OfShape .unexpectedAssignment
  | invalidToken (text : String) : OfShape (.invalidToken text)

section Shape

theorem surplus_cons (tok : Token) (ts : List Token) (h : tok.inExpression = true) :
    surplus (tok :: ts) = 1 - tok.arity + surplus ts := by
  unfold surplus
  rw [List.countP_cons, List.countP_cons]
  cases tok with
  | assign | malformed => cases h
  | binary | dereference | number | identifier =>
    simp only [Token.isOperand, Token.isBinary, Token.arity, reduceIte, Bool.false_eq_true]
    omega

theorem supplied_nil (n : Nat) : Supplied n [] := by
  intro before tok after h
  simp at h

/-- The first token takes its values and leaves one for the rest. -/
theorem supplied_cons_iff (n : Nat) (tok : Token) (ts : List Token) :
    Supplied n (tok :: ts) ↔
      tok.inExpression = true ∧ tok.arity ≤ n ∧ Supplied (n + 1 - tok.arity) ts := by
  constructor
  · intro h
    obtain ⟨htok, hvalues⟩ := h [] tok ts rfl
    have harity : tok.arity ≤ n := by
      have hnone : surplus [] = 0 := rfl
      omega
    refine ⟨htok, harity, ?_⟩
    intro before later after hts
    obtain ⟨hlater, hvalues⟩ := h (tok :: before) later after (by rw [hts]; rfl)
    have hcons := surplus_cons tok before htok
    exact ⟨hlater, by omega⟩
  · intro h before later after hts
    obtain ⟨htok, harity, hrest⟩ := h
    cases before with
    | nil =>
      obtain ⟨rfl, -⟩ := List.cons.inj hts
      have hnone : surplus [] = 0 := rfl
      exact ⟨htok, by omega⟩
    | cons first before =>
      obtain ⟨rfl, hafter⟩ := List.cons.inj hts
      obtain ⟨hlater, hvalues⟩ := hrest before later after hafter
      have hcons := surplus_cons tok before htok
      exact ⟨hlater, by omega⟩

instance decidableSupplied : (n : Nat) → (ts : List Token) → Decidable (Supplied n ts)
  | n, [] => .isTrue (supplied_nil n)
  | n, tok :: ts =>
    have := decidableSupplied (n + 1 - tok.arity) ts
    decidable_of_iff _ (supplied_cons_iff n tok ts).symm

instance (ts : List Token) : Decidable (Balanced ts) :=
  decidable_of_iff (Supplied 0 ts ∧ surplus ts = 1)
    ⟨fun h => ⟨h.1, h.2⟩, fun h => ⟨h.supplied, h.single⟩⟩

end Shape

section Results

variable {α β : Type}

/-- A value has the property `P`, and a failure has the property `Q`. -/
def Returns (P : α → Prop) (Q : EvalError → Prop) : Except EvalError α → Prop
  | .ok a => P a
  | .error err => Q err

theorem Returns.bind {P : α → Prop} {P' : β → Prop} {Q Q' : EvalError → Prop}
    {x : Except EvalError α} {f : α → Except EvalError β} (h : Returns P Q x)
    (hf : ∀ a, P a → Returns P' Q' (f a)) (herror : ∀ err, Q err → Q' err) :
    Returns P' Q' (x >>= f) := by
  cases x with
  | error err => exact herror err h
  | ok a => exact hf a h

theorem Returns.mono {P P' : α → Prop} {Q Q' : EvalError → Prop} {x : Except EvalError α}
    (h : Returns P Q x) (hvalue : ∀ a, P a → P' a) (herror : ∀ err, Q err → Q' err) :
    Returns P' Q' x := by
  cases x with
  | error err => exact herror err h
  | ok a => exact hvalue a h

end Results

namespace Evaluator

variable (e : Evaluator) (registers : Registers)

theorem resolve_shape (o : Operand) :
    Returns (fun _ => True) EvalError.OfData (e.resolve registers o) := by
  cases o with
  | value v => trivial
  | identifier name =>
    rw [resolve]
    cases registers.get? name with
    | none => exact .unknownIdentifier name
    | some v => trivial

theorem pop_shape (operator : String) (stack : List Operand) :
    Returns (fun popped => stack.length = popped.2.length + 1)
      (fun err => err.OfData ∨ stack.length = 0 ∧ err.OfShape) (e.pop registers operator stack) := by
  cases stack with
  | nil => exact Or.inr ⟨rfl, .stackUnderflow operator⟩
  | cons o stack =>
    apply (e.resolve_shape registers o).bind
    · intro v _
      exact rfl
    · intro err herr
      exact Or.inl herr

/-- What a step does to the number of values, and how it fails. -/
theorem step_shape (stack : List Operand) (tok : Token) :
    Returns
      (fun next => (tok.inExpression = true ∧ tok.arity ≤ stack.length) ∧
        next.length = stack.length + 1 - tok.arity)
      (fun err => err.OfData ∨
        ¬ (tok.inExpression = true ∧ tok.arity ≤ stack.length) ∧ err.OfShape)
      (e.step registers stack tok) := by
  -- An operand that is missing when the stack is down to `below` is one that the token takes.
  have hmissing (below : List Operand) (hfew : below.length = 0 → stack.length < tok.arity)
      (err : EvalError) (herr : err.OfData ∨ below.length = 0 ∧ err.OfShape) :
      err.OfData ∨ ¬ (tok.inExpression = true ∧ tok.arity ≤ stack.length) ∧ err.OfShape := by
    rcases herr with hdata | ⟨hempty, hshape⟩
    · exact Or.inl hdata
    · have hshort := hfew hempty
      exact Or.inr ⟨fun h => by omega, hshape⟩
  have hlength (v : UInt64) (rest : List Operand) (taken : Nat)
      (hrest : stack.length = rest.length + taken) :
      (Operand.value v :: rest).length = stack.length + 1 - taken := by
    rw [List.length_cons]
    omega
  cases tok with
  | number v => exact ⟨⟨rfl, Nat.zero_le _⟩, rfl⟩
  | identifier name => exact ⟨⟨rfl, Nat.zero_le _⟩, rfl⟩
  | assign => exact Or.inr ⟨fun h => Bool.false_ne_true h.1, .unexpectedAssignment⟩
  | malformed text => exact Or.inr ⟨fun h => Bool.false_ne_true h.1, .invalidToken text⟩
  | dereference =>
    have harity : Token.dereference.arity = 1 := rfl
    apply (e.pop_shape registers "^" stack).bind
    · intro popped hpopped
      dsimp only
      split
      · exact ⟨⟨rfl, by omega⟩, hlength _ popped.2 1 hpopped⟩
      · exact Or.inl (.memoryRead _)
    · exact hmissing stack (by omega)
  | binary op =>
    have harity : (Token.binary op).arity = 2 := rfl
    apply (e.pop_shape registers _ stack).bind
    · intro right hright
      apply (e.pop_shape registers _ right.2).bind
      · intro left hleft
        dsimp only
        split
        · exact ⟨⟨rfl, by omega⟩, hlength _ left.2 2 (by omega)⟩
        · exact Or.inl .divideByZero
      · exact hmissing right.2 (by omega)
    · exact hmissing stack (by omega)

/-- Tokens that run have found what they take and leave what their shape says; tokens that find what they
take can fail by their data only. -/
theorem runExpression_shape (stack : List Operand) (ts : List Token) :
    Returns
      (fun next => Supplied stack.length ts ∧ (next.length : Int) = stack.length + surplus ts)
      (fun err => err.OfData ∨ ¬ Supplied stack.length ts ∧ err.OfShape)
      (e.runExpression registers stack ts) := by
  induction ts generalizing stack with
  | nil =>
    have hnone : surplus [] = 0 := rfl
    exact ⟨supplied_nil _, by rw [hnone, Int.add_zero]⟩
  | cons tok ts ih =>
    rw [supplied_cons_iff]
    apply (e.step_shape registers stack tok).bind
    · intro next hnext
      obtain ⟨⟨htok, harity⟩, hlength⟩ := hnext
      have hrest := ih next
      rw [hlength] at hrest
      have hsurplus := surplus_cons tok ts htok
      apply hrest.mono
      · intro final hfinal
        obtain ⟨hsupplied, hcount⟩ := hfinal
        exact ⟨⟨htok, harity, hsupplied⟩, by omega⟩
      · intro err herr
        rcases herr with hdata | ⟨hunsupplied, hshape⟩
        · exact Or.inl hdata
        · exact Or.inr ⟨fun h => hunsupplied h.2.2, hshape⟩
    · intro err herr
      rcases herr with hdata | ⟨htok, hshape⟩
      · exact Or.inl hdata
      · exact Or.inr ⟨fun h => htok ⟨h.1, h.2.1⟩, hshape⟩

/-- Of the operands left at the end one is the value; any other number of them is reported. -/
theorem single_shape (stack : List Operand) :
    Returns (fun _ => stack.length = 1)
      (fun err => err.OfData ∨ stack.length ≠ 1 ∧ err = .unbalancedStack stack.length)
      (e.single registers stack) := by
  unfold single
  split
  · apply (e.resolve_shape registers _).mono
    · intro v _
      rfl
    · intro err herr
      exact Or.inl herr
  · rename_i hother
    refine Or.inr ⟨?_, rfl⟩
    intro hone
    obtain ⟨o, ho⟩ := List.length_eq_one_iff.mp hone
    exact hother o ho

/-- The shape of an expression, and the ways in which it has a value or none. -/
theorem value_shape (expression : String) :
    Returns (fun _ => Balanced (tokens expression))
      (fun err => err.OfData ∨ ¬ Balanced (tokens expression) ∧
        (err.OfShape ∨ ∃ n : Nat, err = .unbalancedStack n ∧ n = surplus (tokens expression) ∧ n ≠ 1))
      (e.value registers expression) := by
  apply (e.runExpression_shape registers [] (tokens expression)).bind
  · intro stack hstack
    obtain ⟨hsupplied, hlength⟩ := hstack
    have hsurplus : (stack.length : Int) = surplus (tokens expression) := by
      rw [hlength]
      exact Int.zero_add _
    apply (e.single_shape registers stack).mono
    · intro v hone
      exact ⟨hsupplied, by omega⟩
    · intro err herr
      rcases herr with hdata | ⟨hcount, herr⟩
      · exact Or.inl hdata
      · refine Or.inr ⟨?_, Or.inr ⟨stack.length, herr, hsurplus, hcount⟩⟩
        intro hbalanced
        have hone := hbalanced.single
        omega
  · intro err herr
    rcases herr with hdata | ⟨hunsupplied, hshape⟩
    · exact Or.inl hdata
    · exact Or.inr ⟨fun h => hunsupplied h.supplied, Or.inl hshape⟩

/-- A balanced expression has a value or fails by its data. One that is not balanced has no value. When
values are reported to be left over, their number is that of the operands less that of the binary
operators, and is not one. -/
theorem stack_failures_by_shape (expression : String) :
    (Balanced (tokens expression) →
      (∃ v, e.value registers expression = .ok v) ∨
        ∃ err, e.value registers expression = .error err ∧ err.OfData) ∧
    (¬ Balanced (tokens expression) → ∀ v, e.value registers expression ≠ .ok v) ∧
    ∀ n : Nat, e.value registers expression = .error (.unbalancedStack n) →
      (n : Int) = (tokens expression).countP Token.isOperand -
        (tokens expression).countP Token.isBinary ∧ n ≠ 1 := by
  have hshape := e.value_shape registers expression
  cases houtcome : e.value registers expression with
  | ok v =>
    rw [houtcome] at hshape
    exact ⟨fun _ => Or.inl ⟨v, rfl⟩, fun h => absurd hshape h, nofun⟩
  | error err =>
    rw [houtcome] at hshape
    refine ⟨?_, nofun, ?_⟩
    · intro hbalanced
      rcases hshape with hdata | ⟨hunbalanced, -⟩
      · exact Or.inr ⟨err, rfl, hdata⟩
      · exact absurd hbalanced hunbalanced
    · intro n hn
      obtain rfl := Except.error.inj hn
      rcases hshape with hdata | ⟨-, hshape | ⟨m, hm, hsurplus, hcount⟩⟩
      · cases hdata
      · cases hshape
      · obtain rfl := EvalError.unbalancedStack.inj hm
        exact ⟨hsurplus, hcount⟩

/-- Balance looks at the tokens alone: the names need not have a value, nor the divisor be other than
zero. -/
example : Balanced (tokens "$sp 8 + ^ 1 0 / @") ∧ ¬ Balanced (tokens "1 + 2") := by decide +kernel

end Evaluator

end Symbolication.Postfix
