import Symbolication.OrderedMap.Lemmas
import Symbolication.Proofs.Postfix.Step
import Symbolication.Proofs.Postfix.Tree

/-!
Programs that are assignments, one after the other. The tokens of an expression tree leave one operand
on top of the stack or fail, in the same way on every stack, so an assignment finds its own target
below its value. A program of assignments therefore does them in order, each with the registers that
the ones before it left, and stops at the first whose expression fails.
-/

namespace Symbolication.Postfix

namespace Evaluator

variable (e : Evaluator) (registers : Registers)

/-- What an operator leaves for two operands; the right one is asked for its value first. -/
def combined (op : BinaryOp) (a b : Operand) : Except EvalError Operand := do
  let vb ← e.resolve registers b
  let va ← e.resolve registers a
  match op.result? va vb with
  | some v => return .value (e.width.truncate v)
  | none => throw .divideByZero

/-- What is left of an operand that is taken for an address. -/
def dereferenced (o : Operand) : Except EvalError Operand := do
  let address ← e.resolve registers o
  match e.readWord? address with
  | some v => return .value v
  | none => throw (.memoryRead ⟨address⟩)

/-- What a tree leaves on the stack. -/
def operandOf : Expr → Except EvalError Operand
  | .number v => .ok (.value v)
  | .identifier name => .ok (.identifier name)
  | .binary op l r => do
    let a ← operandOf l
    let b ← operandOf r
    e.combined registers op a b
  | .dereference t => do
    let o ← operandOf t
    e.dereferenced registers o

theorem step_binary_cons (op : BinaryOp) (a b : Operand) (stack : List Operand) :
    e.step registers (b :: a :: stack) (.binary op) =
      e.combined registers op a b >>= fun o => .ok (o :: stack) := by
  simp only [step, combined, pop, bind_assoc, pure_bind]
  apply bind_congr
  intro vb
  apply bind_congr
  intro va
  cases op.result? va vb <;> rfl

theorem step_dereference_cons (o : Operand) (stack : List Operand) :
    e.step registers (o :: stack) .dereference =
      e.dereferenced registers o >>= fun o => .ok (o :: stack) := by
  simp only [step, dereferenced, pop, bind_assoc, pure_bind]
  apply bind_congr
  intro address
  cases e.readWord? address <;> rfl

/-- The tokens of a tree leave what the tree leaves, on any stack and whatever follows. -/
theorem runExpression_tree_append (t : Expr) (stack : List Operand) (rest : List Token) :
    e.runExpression registers stack (t.tokens ++ rest) =
      e.operandOf registers t >>= fun o => e.runExpression registers (o :: stack) rest := by
  induction t generalizing stack rest with
  | number v => rfl
  | identifier name => rfl
  | binary op l r ihl ihr =>
    rw [Expr.tokens, List.append_assoc, List.append_assoc, ihl, operandOf, bind_assoc]
    apply bind_congr
    intro a
    rw [ihr, bind_assoc]
    apply bind_congr
    intro b
    rw [List.singleton_append, runExpression_cons, step_binary_cons, bind_assoc]
    rfl
  | dereference t ih =>
    rw [Expr.tokens, List.append_assoc, ih, operandOf, bind_assoc]
    apply bind_congr
    intro o
    rw [List.singleton_append, runExpression_cons, step_dereference_cons, bind_assoc]
    rfl

theorem valueOfTokens_tree (t : Expr) :
    e.valueOfTokens registers t.tokens = e.operandOf registers t >>= e.resolve registers := by
  have hrun := e.runExpression_tree_append registers t [] []
  rw [List.append_nil] at hrun
  rw [valueOfTokens, hrun, bind_assoc]
  rfl

end Evaluator

theorem Expr.assign_not_mem_tokens (t : Expr) : .assign ∉ t.tokens := by
  induction t with
  | number v => simp [tokens]
  | identifier name => simp [tokens]
  | binary op l r ihl ihr => simp [tokens, ihl, ihr]
  | dereference t ih => simp [tokens, ih]

/-- A target, and the expression of which it gets the value. -/
structure Assignment where
  target : String
  expression : String

namespace Assignment

/-- The tokens of the assignment as it stands in a program. -/
def tokens (a : Assignment) : List Token :=
  .identifier a.target :: (Postfix.tokens a.expression ++ [.assign])

/-- The expression is written as a tree. -/
def WritesTree (a : Assignment) : Prop := ∃ t : Expr, Postfix.tokens a.expression = t.tokens

end Assignment

namespace Evaluator

variable (e : Evaluator) (registers : Registers)

/-- The assignments lead from one state of the registers to another: each target gets the value that
its expression has in the state before it. -/
inductive Performs : Registers → List Assignment → Registers → Prop where
  | nil (registers : Registers) : Performs registers [] registers
  | cons (registers final : Registers) (a : Assignment) (as : List Assignment) (v : UInt64)
    (hvalue : e.value registers a.expression = .ok v)
    (hrest : Performs (registers.insert a.target v) as final) :
    Performs registers (a :: as) final

/-- What is not a target stays as it is. -/
theorem Performs.get?_eq {e : Evaluator} {registers final : Registers} {as : List Assignment}
    (h : e.Performs registers as final) (name : String)
    (hname : name ∉ as.map Assignment.target) : final.get? name = registers.get? name := by
  induction h with
  | nil => rfl
  | cons registers final a as v _ _ ih =>
    rw [List.map_cons, List.mem_cons, not_or] at hname
    obtain ⟨hne, hnot⟩ := hname
    rw [ih hnot, OrderedMap.get?_insert, if_neg hne]

theorem runProgram_cons (stack : List Operand) (tok : Token) (ts : List Token)
    (h : tok ≠ .assign) :
    e.runProgram registers stack (tok :: ts) =
      match e.step registers stack tok with
      | .ok next => e.runProgram registers next ts
      | .error err => (registers, some err) := by
  cases tok with
  | assign => exact absurd rfl h
  | _ => rfl

/-- What an assignment finds on the stack: its target, its value and the operands below them. -/
def assigned (stack : List Operand) : Except EvalError (String × UInt64 × List Operand) := do
  match ← e.pop registers "=" stack with
  | (v, .identifier name :: rest) => return (name, v, rest)
  | _ => throw .badAssignment

theorem assigned_eq_ok_iff (stack rest : List Operand) (name : String) (v : UInt64) :
    e.assigned registers stack = .ok (name, v, rest) ↔
      ∃ o, stack = o :: .identifier name :: rest ∧ e.resolve registers o = .ok v := by
  rw [assigned, bind_eq_ok_iff]
  constructor
  · intro h
    obtain ⟨⟨u, below⟩, hpop, h⟩ := h
    obtain ⟨o, hstack, ho⟩ := (e.pop_eq_ok_iff registers _ _ _ _).mp hpop
    match below with
    | .identifier target :: rest =>
      cases h
      exact ⟨o, hstack, ho⟩
    | .value _ :: _ => cases h
    | [] => cases h
  · intro h
    obtain ⟨o, hstack, ho⟩ := h
    exact ⟨_, (e.pop_eq_ok_iff registers _ _ _ _).mpr ⟨o, hstack, ho⟩, rfl⟩

theorem runProgram_assign_cons (stack : List Operand) (ts : List Token) :
    e.runProgram registers stack (.assign :: ts) =
      match e.assigned registers stack with
      | .ok (name, v, rest) => e.runProgram (registers.insert name v) rest ts
      | .error err => (registers, some err) := by
  rw [runProgram, assign, assigned]
  cases e.pop registers "=" stack with
  | error err => rfl
  | ok popped =>
    match popped with
    | (v, .identifier name :: rest) => rfl
    | (v, .value u :: rest) => rfl
    | (v, []) => rfl

theorem runProgram_assign (o : Operand) (name : String) (stack : List Operand) (rest : List Token) :
    e.runProgram registers (o :: .identifier name :: stack) (.assign :: rest) =
      match e.resolve registers o with
      | .ok v => e.runProgram (registers.insert name v) stack rest
      | .error err => (registers, some err) := by
  have hassign : e.assign registers (o :: .identifier name :: stack) =
      e.resolve registers o >>= fun v => .ok (registers.insert name v, stack) := by
    simp only [assign, pop, bind_assoc, pure_bind]
    rfl
  rw [runProgram, hassign]
  cases e.resolve registers o <;> rfl

/-- Up to the next assignment a program runs like an expression. -/
theorem runProgram_append (stack : List Operand) (ts rest : List Token) (h : .assign ∉ ts) :
    e.runProgram registers stack (ts ++ rest) =
      match e.runExpression registers stack ts with
      | .ok next => e.runProgram registers next rest
      | .error err => (registers, some err) := by
  induction ts generalizing stack with
  | nil => rfl
  | cons tok ts ih =>
    rw [List.mem_cons, not_or] at h
    obtain ⟨htok, hts⟩ := h
    rw [List.cons_append, runProgram_cons _ _ _ _ _ (Ne.symm htok), runExpression_cons]
    cases e.step registers stack tok with
    | error err => rfl
    | ok next => exact ih next hts

/-- An assignment whose expression is a tree gives its target the value of the expression, or stops
the program with the error of the expression. -/
theorem runProgram_assignment (a : Assignment) (ha : a.WritesTree) (stack : List Operand)
    (rest : List Token) :
    e.runProgram registers stack (a.tokens ++ rest) =
      match e.value registers a.expression with
      | .ok v => e.runProgram (registers.insert a.target v) stack rest
      | .error err => (registers, some err) := by
  obtain ⟨t, ht⟩ := ha
  have hvalue : e.value registers a.expression =
      e.operandOf registers t >>= e.resolve registers := by
    rw [value, ht, valueOfTokens_tree]
  have hsplit : a.tokens ++ rest = (.identifier a.target :: t.tokens) ++ .assign :: rest := by
    rw [Assignment.tokens, ht]
    simp
  have hassign : .assign ∉ Token.identifier a.target :: t.tokens := by
    rw [List.mem_cons, not_or]
    exact ⟨nofun, t.assign_not_mem_tokens⟩
  have hrun : e.runExpression registers stack (.identifier a.target :: t.tokens) =
      e.operandOf registers t >>= fun o => .ok (o :: .identifier a.target :: stack) := by
    have htree := e.runExpression_tree_append registers t (.identifier a.target :: stack) []
    rw [List.append_nil] at htree
    exact htree
  rw [hsplit, runProgram_append _ _ _ _ _ hassign, hrun, hvalue]
  cases e.operandOf registers t with
  | error err => rfl
  | ok o =>
    -- The value is on top, and below it lies the target.
    exact e.runProgram_assign registers o a.target stack rest

/-- The assignments are done in order until one fails. -/
theorem exists_performs_runProgram (as : List Assignment) (h : ∀ a ∈ as, a.WritesTree) :
    let outcome := e.runProgram registers [] (as.flatMap Assignment.tokens)
    ∃ executed rest, as = executed ++ rest ∧ e.Performs registers executed outcome.1 ∧
      (rest = [] ∧ outcome.2 = none ∨ ∃ a later err, rest = a :: later ∧
        e.value outcome.1 a.expression = .error err ∧ outcome.2 = some err) := by
  induction as generalizing registers with
  | nil => exact ⟨[], [], rfl, .nil registers, Or.inl ⟨rfl, rfl⟩⟩
  | cons a as ih =>
    obtain ⟨ha, has⟩ := List.forall_mem_cons.mp h
    rw [List.flatMap_cons, runProgram_assignment e registers a ha]
    cases hvalue : e.value registers a.expression with
    | error err => exact ⟨[], a :: as, rfl, .nil registers, Or.inr ⟨a, as, err, rfl, hvalue, rfl⟩⟩
    | ok v =>
      obtain ⟨executed, rest, rfl, hperforms, hend⟩ := ih (registers.insert a.target v) has
      exact ⟨a :: executed, rest, rfl, .cons _ _ _ _ v hvalue hperforms, hend⟩

/-- A program of assignments does them one after the other. Each target gets the value that its
expression has by itself, with the registers as the assignments before it left them, and nothing but
the targets changes. The program ends well if all are done; otherwise it ends with the error of the
first expression that fails, and the registers hold the assignments before it. -/
theorem run_performs_assignments (program : String) (as : List Assignment)
    (hprogram : tokens program = as.flatMap Assignment.tokens) (htrees : ∀ a ∈ as, a.WritesTree) :
    let outcome := e.run registers program
    ∃ executed rest, as = executed ++ rest ∧ e.Performs registers executed outcome.1 ∧
      (∀ name, name ∉ executed.map Assignment.target →
        outcome.1.get? name = registers.get? name) ∧
      (rest = [] ∧ outcome.2 = none ∨ ∃ a later err, rest = a :: later ∧
        e.value outcome.1 a.expression = .error err ∧ outcome.2 = some err) := by
  intro outcome
  have houtcome : outcome = e.runProgram registers [] (as.flatMap Assignment.tokens) := by
    rw [← hprogram]
    rfl
  obtain ⟨executed, rest, hsplit, hperforms, hend⟩ := e.exists_performs_runProgram registers as htrees
  rw [← houtcome] at hperforms hend
  exact ⟨executed, rest, hsplit, hperforms, hperforms.get?_eq, hend⟩

/-- A program on words of 32 bits whose third assignment divides by zero. -/
def stoppedProgram : String := "$esp $esp 4 + = $t $hi = $eip $t 0 / = $esp 7 ="

theorem run_stoppedProgram :
    let e : Evaluator := { memory := .none, width := .bits32 }
    let registers : Registers := .ofList [("$esp", 0x10), ("$hi", 0x100000007)]
    let as : List Assignment :=
      [⟨"$esp", "$esp 4 +"⟩, ⟨"$t", "$hi"⟩, ⟨"$eip", "$t 0 /"⟩, ⟨"$esp", "7"⟩]
    let outcome := e.run registers stoppedProgram
    tokens stoppedProgram = as.flatMap Assignment.tokens ∧ (∀ a ∈ as, a.WritesTree) ∧
    outcome.2 = some .divideByZero ∧ outcome.1.get? "$esp" = some 0x14 ∧
    outcome.1.get? "$t" = some 7 ∧ outcome.1.get? "$hi" = some 0x100000007 ∧
    ∃ a ∈ as, e.value outcome.1 a.expression = .error .divideByZero := by
  intro e registers as outcome
  have hprogram : tokens stoppedProgram = as.flatMap Assignment.tokens := by decide +kernel
  have htrees : ∀ a ∈ as, a.WritesTree := by
    simp only [as, List.forall_mem_cons]
    refine ⟨⟨.binary .add (.identifier "$esp") (.number 4), by decide +kernel⟩,
      ⟨.identifier "$hi", by decide +kernel⟩,
      ⟨.binary .div (.identifier "$t") (.number 0), by decide +kernel⟩,
      ⟨.number 7, by decide +kernel⟩, nofun⟩
  have herror : outcome.2 = some .divideByZero := by decide +kernel
  obtain ⟨executed, rest, hsplit, -, hkept, hend⟩ :=
    e.run_performs_assignments registers stoppedProgram as hprogram htrees
  have hhi : "$hi" ∉ executed.map Assignment.target := by
    intro hmem
    have hall : "$hi" ∈ as.map Assignment.target := by
      rw [hsplit, List.map_append]
      exact List.mem_append_left _ hmem
    revert hall
    decide
  refine ⟨hprogram, htrees, herror, by decide +kernel, by decide +kernel, ?_, ?_⟩
  · exact (hkept "$hi" hhi).trans (by decide +kernel)
  · rcases hend with ⟨-, hnone⟩ | ⟨a, later, err, rfl, hvalue, herr⟩
    · cases hnone.symm.trans herror
    · obtain rfl := Option.some.inj (herr.symm.trans herror)
      exact ⟨a, by rw [hsplit]; simp, hvalue⟩

end Evaluator

end Symbolication.Postfix
