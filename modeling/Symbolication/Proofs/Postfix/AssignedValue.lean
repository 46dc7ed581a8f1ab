import Mathlib.Control.Monad.Basic
import Symbolication.Proofs.Postfix.Program
import Symbolication.Proofs.Postfix.Value
import Symbolication.Proofs.Text.Token

/-!
Assignments whose expression may be anything. It may reach down to the target and take it for an
operand, it may leave too much or too little, or another identifier in the target's place. None of this
ends well: a program that does has two operands before its last token, and the trees that they stand for
are all that the program has written, the target first and then the expression.
-/

namespace Symbolication.Postfix

theorem tokens_append_blank (s t : String) : tokens (s ++ " " ++ t) = tokens s ++ tokens t := by
  have htext : (s ++ " " ++ t).toList = s.toList ++ ' ' :: t.toList := by simp
  rw [tokens, htext, Text.tokens_append ' ' rfl, List.map_append]
  rfl

namespace Assignment

/-- The assignment as a program by itself. -/
def text (a : Assignment) : String := a.target ++ " " ++ a.expression ++ " " ++ "="

theorem tokens_text (a : Assignment) (h : Postfix.tokens a.target = [.identifier a.target]) :
    Postfix.tokens a.text = a.tokens := by
  have hassign : Postfix.tokens "=" = [.assign] := by decide +kernel
  rw [text, tokens_append_blank, tokens_append_blank, h, hassign]
  rfl

end Assignment

namespace Evaluator

variable (e : Evaluator) (registers : Registers)

/-- An assignment that ends a program well has found its value, its target, and nothing else. -/
theorem stack_of_last_assign (stack : List Operand)
    (h : (e.runProgram registers stack [.assign]).2 = none) :
    ∃ o name v, stack = [o, .identifier name] ∧ e.resolve registers o = .ok v := by
  rw [runProgram_assign_cons] at h
  cases hassigned : e.assigned registers stack with
  | error err =>
    rw [hassigned] at h
    cases h
  | ok found =>
    obtain ⟨name, v, final⟩ := found
    rw [hassigned] at h
    obtain ⟨o, hstack, ho⟩ := (e.assigned_eq_ok_iff registers _ _ _ _).mp hassigned
    have hfinal : final = [] := by
      cases final with
      | nil => rfl
      | cons other final => cases h
    exact ⟨o, name, v, by rw [hstack, hfinal], ho⟩

/-- Tokens that leave an identifier under one operand have written the tree of that operand, and above
the target they found the identifier is the target. -/
theorem tokens_of_run_above_target (target name : String) (o : Operand) (v : UInt64)
    (ts : List Token)
    (hrun : e.runExpression registers [.identifier target] ts = .ok [o, .identifier name])
    (ho : e.resolve registers o = .ok v) :
    name = target ∧ ∃ t : Expr, ts = t.tokens ∧ t.value? e registers = some v.toNat := by
  have htarget : e.StackStandsFor registers [.identifier target] [.identifier target] :=
    .cons _ _ _ _ (.identifier target) .nil
  obtain ⟨trees, hbuild, hstands⟩ := e.build?_of_runExpression registers _ _ _ ts htarget hrun
  -- Only an identifier is left on the stack as an identifier: whatever is computed is a value.
  obtain ⟨t, rfl, ht⟩ : ∃ t, trees = [t, .identifier name] ∧ e.StandsFor registers o t := by
    cases hstands with
    | cons _ t _ _ ht hbelow =>
      cases hbelow with
      | cons _ _ _ _ hidentifier hnone =>
        cases hidentifier
        cases hnone
        exact ⟨t, rfl, ht⟩
  have hwritten := Expr.written_of_build? _ _ ts hbuild
  have hlist : Token.identifier name :: t.tokens = .identifier target :: ts := by
    rw [Expr.written_cons] at hwritten
    exact hwritten
  obtain ⟨hname, hts⟩ := List.cons.inj hlist
  refine ⟨Token.identifier.inj hname, t, hts.symm, ?_⟩
  exact (e.resolve_eq_ok_iff registers o t ht v).mp ho

/-- A program that is one assignment ends well only if its expression has a value by itself. -/
theorem exists_value_of_runProgram (a : Assignment) (h : .assign ∉ tokens a.expression)
    (hend : (e.runProgram registers [] a.tokens).2 = none) :
    ∃ v, e.value registers a.expression = .ok v := by
  have hexpression : .assign ∉ Token.identifier a.target :: tokens a.expression := by
    rw [List.mem_cons, not_or]
    exact ⟨nofun, h⟩
  have hprogram := e.runProgram_append registers [] _ [.assign] hexpression
  have hstart : e.runExpression registers [] (.identifier a.target :: tokens a.expression) =
      e.runExpression registers [.identifier a.target] (tokens a.expression) := rfl
  rw [hstart] at hprogram
  rw [Assignment.tokens, ← List.cons_append, hprogram] at hend
  cases hrun : e.runExpression registers [.identifier a.target] (tokens a.expression) with
  | error err =>
    rw [hrun] at hend
    cases hend
  | ok stack =>
    rw [hrun] at hend
    obtain ⟨o, name, v, rfl, ho⟩ := e.stack_of_last_assign registers stack hend
    obtain ⟨-, t, ht, hvalue⟩ := e.tokens_of_run_above_target registers _ name o v _ hrun ho
    exact ⟨v, (e.valueOfTokens_eq_ok_iff registers _ v).mpr ⟨t, ht, hvalue⟩⟩

/-- An expression that has a value is assigned. -/
theorem runProgram_of_value (a : Assignment) (v : UInt64)
    (h : e.value registers a.expression = .ok v) :
    e.runProgram registers [] a.tokens = (registers.insert a.target v, none) := by
  obtain ⟨t, ht, -⟩ := (e.valueOfTokens_eq_ok_iff registers _ v).mp h
  have hrun := e.runProgram_assignment registers a ⟨t, ht⟩ [] []
  rw [List.append_nil, h] at hrun
  exact hrun

/-- A program that assigns an expression without an assignment in it, whatever else this text may be,
ends well exactly if the expression has a value by itself. The target then gets this value and every
other register stays as it is. -/
theorem run_assigns_value_iff (a : Assignment) (program : String)
    (htarget : tokens a.target = [.identifier a.target])
    (hexpression : .assign ∉ tokens a.expression) (hprogram : tokens program = tokens a.text) :
    let outcome := e.run registers program
    (outcome.2 = none ↔ ∃ v, e.value registers a.expression = .ok v) ∧
    ∀ v, e.value registers a.expression = .ok v →
      outcome.1 = registers.insert a.target v ∧ outcome.1.get? a.target = some v ∧
        ∀ name, name ≠ a.target → outcome.1.get? name = registers.get? name := by
  intro outcome
  have houtcome : outcome = e.runProgram registers [] a.tokens := by
    rw [← a.tokens_text htarget, ← hprogram]
    rfl
  have hassigned (v : UInt64) (hv : e.value registers a.expression = .ok v) :
      outcome = (registers.insert a.target v, none) :=
    houtcome.trans (e.runProgram_of_value registers a v hv)
  constructor
  · constructor
    · intro hend
      rw [houtcome] at hend
      exact e.exists_value_of_runProgram registers a hexpression hend
    · intro h
      obtain ⟨v, hv⟩ := h
      rw [hassigned v hv]
  · intro v hv
    rw [hassigned v hv]
    refine ⟨rfl, ?_, ?_⟩
    · rw [OrderedMap.get?_insert, if_pos rfl]
    · intro name hname
      rw [OrderedMap.get?_insert, if_neg hname]

/-- Of two expressions on 32-bit words one is assigned, and one takes the target for an operand and is
not: there is nothing left to assign its value to. -/
theorem run_assigns_value_or_fails :
    let e : Evaluator := { memory := .none, width := .bits32 }
    let registers : Registers := .ofList [("$eax", 0x100000001), ("$t", 5)]
    let assigned : Assignment := ⟨"$t", "$eax 2 -"⟩
    let unassigned : Assignment := ⟨"$t", "$eax + 1"⟩
    tokens assigned.target = [.identifier "$t"] ∧ .assign ∉ tokens assigned.expression ∧
    .assign ∉ tokens unassigned.expression ∧
    tokens "\t$t  $eax 2 - =\n" = tokens assigned.text ∧
    (e.run registers "\t$t  $eax 2 - =\n").2 = none ∧
    (e.run registers "\t$t  $eax 2 - =\n").1.get? "$t" = some 0xFFFFFFFF ∧
    (e.run registers "\t$t  $eax 2 - =\n").1.get? "$eax" = some 0x100000001 ∧
    (e.run registers unassigned.text).2 ≠ none := by
  intro e registers assigned unassigned
  have htarget : tokens assigned.target = [.identifier "$t"] := by decide +kernel
  have hassigned : .assign ∉ tokens assigned.expression := by decide +kernel
  have hunassigned : .assign ∉ tokens unassigned.expression := by decide +kernel
  have hprogram : tokens "\t$t  $eax 2 - =\n" = tokens assigned.text := by decide +kernel
  have hvalue : e.value registers assigned.expression = .ok 0xFFFFFFFF := by decide +kernel
  have hnovalue : ∀ v, e.value registers unassigned.expression ≠ .ok v := by
    have hfail : e.value registers unassigned.expression = .error (.stackUnderflow "+") := by
      decide +kernel
    rw [hfail]
    exact fun _ => nofun
  obtain ⟨hends, hget⟩ :=
    e.run_assigns_value_iff registers assigned _ htarget hassigned hprogram
  obtain ⟨hfails, -⟩ :=
    e.run_assigns_value_iff registers unassigned unassigned.text htarget hunassigned rfl
  obtain ⟨-, htargetValue, hother⟩ := hget 0xFFFFFFFF hvalue
  refine ⟨htarget, hassigned, hunassigned, hprogram, hends.mpr ⟨_, hvalue⟩, htargetValue, ?_, ?_⟩
  · exact (hother "$eax" (by decide)).trans (by decide +kernel)
  · intro hend
    obtain ⟨v, hv⟩ := hfails.mp hend
    exact hnovalue v hv

end Evaluator

end Symbolication.Postfix
