import Symbolication.Proofs.Postfix.Effects
import Symbolication.Proofs.Postfix.LowHalf

/-!
Evaluation on 32-bit words. Every word that a run hands on is below `2 ^ 32`, be it a result, an address
for memory or the value of an assignment; so memory from there on does not matter. Of a register only
the low half is seen: two runs whose registers agree there give the same result, and the registers go
on agreeing.
-/

namespace Symbolication

/-- Below `2 ^ 32` both memories hold the same 32-bit words. -/
def Memory.SameLowPart (m n : Memory) : Prop :=
  ∀ address : UInt64, address.toNat < UInt32.size → m.read32? address = n.read32? address

namespace Postfix

theorem SameLowHalves.insert {registers others : Registers} (h : SameLowHalves registers others)
    (name : String) (v : UInt64) :
    SameLowHalves (registers.insert name v) (others.insert name v) := by
  intro other
  rw [OrderedMap.get?_insert, OrderedMap.get?_insert]
  split
  · rfl
  · exact h other

namespace Evaluator

variable (e : Evaluator)

section Bounds

variable (registers : Registers)

theorem resolve_lt (o : Operand) (v : UInt64) (h : e.resolve registers o = .ok v) :
    v.toNat < e.width.modulus := by
  have hcut (u : UInt64) : (e.width.truncate u).toNat < e.width.modulus := by
    rw [Width.toNat_truncate]
    exact Nat.mod_lt _ e.width.modulus_pos
  cases o with
  | value u =>
    obtain rfl := Except.ok.inj h
    exact hcut u
  | identifier name =>
    rw [resolve] at h
    cases hget : registers.get? name with
    | none =>
      rw [hget] at h
      cases h
    | some u =>
      rw [hget] at h
      obtain rfl := Except.ok.inj h
      exact hcut u

theorem pop_lt (operator : String) (stack rest : List Operand) (v : UInt64)
    (h : e.pop registers operator stack = .ok (v, rest)) : v.toNat < e.width.modulus := by
  obtain ⟨o, -, ho⟩ := (e.pop_eq_ok_iff registers operator stack rest v).mp h
  exact e.resolve_lt registers o v ho

theorem address?_lt (stack : List Operand) (tok : Token) :
    ∀ address ∈ (e.address? registers stack tok).toList, address.toNat < e.width.modulus := by
  intro address h
  have hsome := Option.mem_toList.mp h
  cases tok with
  | dereference =>
    obtain ⟨popped, hpopped, rfl⟩ := Option.map_eq_some_iff.mp hsome
    apply e.pop_lt registers "^" stack popped.2
    cases hpop : e.pop registers "^" stack with
    | error err =>
      rw [hpop] at hpopped
      cases hpopped
    | ok p =>
      rw [hpop] at hpopped
      obtain rfl := Option.some.inj hpopped
      rfl
  | binary | assign | number | identifier | malformed => cases hsome

theorem addresses_lt (stack : List Operand) (ts : List Token) :
    ∀ address ∈ e.addresses registers stack ts, address.toNat < e.width.modulus := by
  induction ts generalizing stack with
  | nil => exact fun _ h => absurd h List.not_mem_nil
  | cons tok ts ih =>
    refine List.forall_mem_append.mpr ⟨e.address?_lt registers stack tok, ?_⟩
    cases e.step registers stack tok with
    | error err => exact fun _ h => absurd h List.not_mem_nil
    | ok next => exact ih next

theorem effects_lt (stack : List Operand) (ts : List Token) :
    ∀ effect ∈ e.effects registers stack ts, effect.word.toNat < e.width.modulus := by
  have hnone : ∀ effect ∈ ([] : List Effect), effect.word.toNat < e.width.modulus :=
    fun _ h => absurd h List.not_mem_nil
  induction ts generalizing registers stack with
  | nil => exact hnone
  | cons tok ts ih =>
    by_cases htok : tok = .assign
    · rw [htok, effects]
      cases hassigned : e.assigned registers stack with
      | error err => exact hnone
      | ok found =>
        obtain ⟨name, v, rest⟩ := found
        obtain ⟨o, -, ho⟩ := (e.assigned_eq_ok_iff registers stack rest name v).mp hassigned
        exact List.forall_mem_cons.mpr ⟨e.resolve_lt registers o v ho, ih _ rest⟩
    · rw [effects_cons _ _ _ _ _ htok]
      refine List.forall_mem_append.mpr ⟨?_, ?_⟩
      · exact List.forall_mem_map.mpr (e.address?_lt registers stack tok)
      · cases e.step registers stack tok with
        | error err => exact hnone
        | ok next => exact ih registers next

end Bounds

section Narrow

variable (he : e.width = .bits32)

include he

section LowPart

variable (registers : Registers) (m : Memory) (hmemory : e.memory.SameLowPart m)

include hmemory

theorem readWord?_onMemory (address : UInt64) (h : address.toNat < e.width.modulus) :
    (e.onMemory m).readWord? address = e.readWord? address := by
  have hwidth : (e.onMemory m).width = .bits32 := he
  unfold readWord?
  rw [hwidth, he]
  rw [he] at h
  dsimp only
  rw [hmemory address h]
  rfl

theorem value_of_sameLowPart (expression : String) :
    (e.onMemory m).value registers expression = e.value registers expression := by
  apply e.value_onMemory
  intro address haddress
  have hlt := e.addresses_lt registers [] _ address haddress
  exact e.readWord?_onMemory he m hmemory address hlt

theorem runProgram_of_sameLowPart (ts : List Token) :
    (e.onMemory m).runProgram registers [] ts = e.runProgram registers [] ts := by
  apply e.runProgram_onMemory
  intro address haddress
  have hlt := e.effects_lt registers [] ts (.read address) haddress
  exact e.readWord?_onMemory he m hmemory address hlt

end LowPart

section LowHalves

variable {registers others : Registers} (hregisters : SameLowHalves registers others)

include hregisters

theorem resolve_narrow (o : Operand) : e.resolve registers o = e.resolve others o := by
  have hsame : SameOperand o o := by
    cases o with
    | value v => exact .value v v rfl
    | identifier name => exact .identifier name
  apply (e.resolve_alike e hregisters hsame).eq
  intro v w hv hw hvw
  have hvlt := e.resolve_lt registers o v hv
  have hwlt := e.resolve_lt others o w hw
  rw [he] at hvlt hwlt
  apply UInt64.toNat_inj.mp
  calc v.toNat
      = v.toNat % UInt32.size := (Nat.mod_eq_of_lt hvlt).symm
    _ = w.toNat % UInt32.size := hvw
    _ = w.toNat := Nat.mod_eq_of_lt hwlt

theorem pop_narrow (operator : String) (stack : List Operand) :
    e.pop registers operator stack = e.pop others operator stack := by
  cases stack with
  | nil => rfl
  | cons o stack => rw [pop, pop, e.resolve_narrow he hregisters]

theorem assigned_narrow (stack : List Operand) :
    e.assigned registers stack = e.assigned others stack := by
  rw [assigned, assigned, e.pop_narrow he hregisters]

theorem step_narrow (stack : List Operand) (tok : Token) :
    e.step registers stack tok = e.step others stack tok := by
  have hpop := e.pop_narrow he hregisters
  cases tok with
  | number | identifier | assign | malformed => rfl
  | binary op => simp only [step, hpop]
  | dereference => simp only [step, hpop]

theorem runExpression_narrow (stack : List Operand) (ts : List Token) :
    e.runExpression registers stack ts = e.runExpression others stack ts := by
  have hstep : e.step registers = e.step others := by
    funext stack tok
    exact e.step_narrow he hregisters stack tok
  rw [runExpression, runExpression, hstep]

theorem value_narrow (expression : String) :
    e.value registers expression = e.value others expression := by
  rw [value, value, valueOfTokens, valueOfTokens, e.runExpression_narrow he hregisters]
  apply bind_congr
  intro stack
  unfold single
  split
  · exact e.resolve_narrow he hregisters _
  · rfl

end LowHalves

/-- Programs end alike, and leave registers with the same low halves. -/
theorem runProgram_narrow {registers others : Registers}
    (hregisters : SameLowHalves registers others) (stack : List Operand) (ts : List Token) :
    (e.runProgram registers stack ts).2 = (e.runProgram others stack ts).2 ∧
      SameLowHalves (e.runProgram registers stack ts).1 (e.runProgram others stack ts).1 := by
  induction ts generalizing registers others stack with
  | nil => exact ⟨rfl, hregisters⟩
  | cons tok ts ih =>
    by_cases htok : tok = .assign
    · rw [htok, runProgram_assign_cons, runProgram_assign_cons, e.assigned_narrow he hregisters]
      cases e.assigned others stack with
      | error err => exact ⟨rfl, hregisters⟩
      | ok found =>
        obtain ⟨name, v, rest⟩ := found
        exact ih (hregisters.insert name v) rest
    · rw [runProgram_cons _ _ _ _ _ htok, runProgram_cons _ _ _ _ _ htok,
        e.step_narrow he hregisters]
      cases e.step others stack tok with
      | error err => exact ⟨rfl, hregisters⟩
      | ok next => exact ih hregisters next

end Narrow

end Evaluator

end Postfix

end Symbolication
