import Symbolication.Proofs.Postfix.Program

/-!
What a run hands on: addresses to memory, and values to registers. The addresses are all that a run asks
of memory, so on another memory with the same words there the run is the same. The assignments are all
that becomes of the registers.
-/

namespace Symbolication.Postfix

/-- What a program does beside its stack. -/
inductive Effect where
  /-- A word is asked of memory. -/
  | read (address : UInt64)
  /-- An assignment is made. -/
  | store (name : String) (value : UInt64)
  deriving DecidableEq, Repr

namespace Effect

/-- The word that is handed on to memory or to a register. -/
def word : Effect → UInt64
  | read address => address
  | store _ value => value

def perform (registers : Registers) : Effect → Registers
  | read _ => registers
  | store name value => registers.insert name value

end Effect

namespace Evaluator

variable (e : Evaluator)

/-- The address that a token passes to memory. -/
def address? (registers : Registers) (stack : List Operand) : Token → Option UInt64
  | .dereference => (e.pop registers "^" stack).toOption.map Prod.fst
  | _ => none

/-- The addresses that an expression passes to memory, up to its end or to the token that fails. -/
def addresses (registers : Registers) : List Operand → List Token → List UInt64
  | _, [] => []
  | stack, tok :: ts =>
    (e.address? registers stack tok).toList ++
      match e.step registers stack tok with
      | .ok next => addresses registers next ts
      | .error _ => []

/-- The effects of a program, up to its end or to the token that fails. -/
def effects : Registers → List Operand → List Token → List Effect
  | _, _, [] => []
  | registers, stack, .assign :: ts =>
    match e.assigned registers stack with
    | .ok (name, v, rest) => .store name v :: effects (registers.insert name v) rest ts
    | .error _ => []
  | registers, stack, tok :: ts =>
    (e.address? registers stack tok).toList.map .read ++
      match e.step registers stack tok with
      | .ok next => effects registers next ts
      | .error _ => []

theorem effects_cons (registers : Registers) (stack : List Operand) (tok : Token) (ts : List Token)
    (h : tok ≠ .assign) :
    e.effects registers stack (tok :: ts) =
      (e.address? registers stack tok).toList.map .read ++
        match e.step registers stack tok with
        | .ok next => e.effects registers next ts
        | .error _ => [] := by
  cases tok with
  | assign => exact absurd rfl h
  | _ => rfl

/-- The assignments among the effects are all that becomes of the registers. -/
theorem runProgram_registers (registers : Registers) (stack : List Operand) (ts : List Token) :
    (e.runProgram registers stack ts).1 =
      (e.effects registers stack ts).foldl Effect.perform registers := by
  induction ts generalizing registers stack with
  | nil => rfl
  | cons tok ts ih =>
    by_cases htok : tok = .assign
    · rw [htok, runProgram_assign_cons, effects]
      cases e.assigned registers stack with
      | error err => rfl
      | ok found =>
        obtain ⟨name, v, rest⟩ := found
        exact ih (registers.insert name v) rest
    · -- Up to the next assignment the registers stay.
      have hread : ((e.address? registers stack tok).toList.map Effect.read).foldl Effect.perform
          registers = registers := by
        cases e.address? registers stack tok <;> rfl
      rw [runProgram_cons _ _ _ _ _ htok, effects_cons _ _ _ _ _ htok, List.foldl_append, hread]
      cases e.step registers stack tok with
      | error err => rfl
      | ok next => exact ih registers next

/-- The same evaluator on another memory. -/
def onMemory (m : Memory) : Evaluator := { e with memory := m }

section OtherMemory

variable (m : Memory) (registers : Registers)

theorem step_onMemory (stack : List Operand) (tok : Token)
    (h : ∀ address ∈ (e.address? registers stack tok).toList,
      (e.onMemory m).readWord? address = e.readWord? address) :
    (e.onMemory m).step registers stack tok = e.step registers stack tok := by
  cases tok with
  | binary | number | identifier | assign | malformed => rfl
  | dereference =>
    have hpop : (e.onMemory m).pop registers "^" stack = e.pop registers "^" stack := rfl
    rw [step, step, hpop]
    apply bind_congr_of_ok
    intro popped hpopped
    have haddress : popped.1 ∈ (e.address? registers stack .dereference).toList := by
      rw [address?, hpopped]
      exact List.mem_singleton_self popped.1
    dsimp only
    rw [h popped.1 haddress]

theorem runExpression_onMemory (stack : List Operand) (ts : List Token)
    (h : ∀ address ∈ e.addresses registers stack ts,
      (e.onMemory m).readWord? address = e.readWord? address) :
    (e.onMemory m).runExpression registers stack ts = e.runExpression registers stack ts := by
  induction ts generalizing stack with
  | nil => rfl
  | cons tok ts ih =>
    obtain ⟨htok, hrest⟩ := List.forall_mem_append.mp h
    rw [runExpression_cons, runExpression_cons, e.step_onMemory m registers stack tok htok]
    apply bind_congr_of_ok
    intro next hnext
    rw [hnext] at hrest
    exact ih next hrest

/-- An expression has the same value on a memory with the same words at the addresses it reads. -/
theorem value_onMemory (expression : String)
    (h : ∀ address ∈ e.addresses registers [] (tokens expression),
      (e.onMemory m).readWord? address = e.readWord? address) :
    (e.onMemory m).value registers expression = e.value registers expression := by
  have hrun := e.runExpression_onMemory m registers [] _ h
  rw [value, value, valueOfTokens, valueOfTokens, hrun]
  rfl

/-- A program runs in the same way on a memory with the same words at the addresses it reads. -/
theorem runProgram_onMemory (stack : List Operand) (ts : List Token)
    (h : ∀ address, .read address ∈ e.effects registers stack ts →
      (e.onMemory m).readWord? address = e.readWord? address) :
    (e.onMemory m).runProgram registers stack ts = e.runProgram registers stack ts := by
  induction ts generalizing registers stack with
  | nil => rfl
  | cons tok ts ih =>
    by_cases htok : tok = .assign
    · have hassigned : (e.onMemory m).assigned registers stack = e.assigned registers stack := rfl
      rw [htok, effects] at h
      rw [htok, runProgram_assign_cons, runProgram_assign_cons, hassigned]
      cases hfound : e.assigned registers stack with
      | error err => rfl
      | ok found =>
        obtain ⟨name, v, rest⟩ := found
        rw [hfound] at h
        apply ih
        intro address haddress
        exact h address (List.mem_cons_of_mem _ haddress)
    · rw [effects_cons _ _ _ _ _ htok] at h
      have hread : ∀ address ∈ (e.address? registers stack tok).toList,
          (e.onMemory m).readWord? address = e.readWord? address := by
        intro address haddress
        exact h address (List.mem_append_left _ (List.mem_map_of_mem haddress))
      rw [runProgram_cons _ _ _ _ _ htok, runProgram_cons _ _ _ _ _ htok,
        e.step_onMemory m registers stack tok hread]
      cases hnext : e.step registers stack tok with
      | error err => rfl
      | ok next =>
        rw [hnext] at h
        apply ih
        intro address haddress
        exact h address (List.mem_append_right _ haddress)

end OtherMemory

end Evaluator

end Symbolication.Postfix
