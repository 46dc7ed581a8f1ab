import Symbolication.Address
import Symbolication.Memory
import Symbolication.OrderedMap.Basic
import Symbolication.Postfix.Token
import Symbolication.Text.Quoted

/-!
Evaluation of postfix expressions and programs over a dictionary of registers and the memory of a
process. An expression leaves one value; a program is made of assignments and leaves none. Values
are words of 32 or 64 bits: identifiers stay on the stack as names until an operator needs their
value, which is when one without a value is found out.
-/

namespace Symbolication

/-- The values of registers and variables, by name. -/
abbrev Registers := OrderedMap String UInt64

namespace Postfix

inductive Width where
  | bits32
  | bits64
  deriving DecidableEq, Repr

namespace Width

/-- A pointer size of four bytes means 32 bits, any other 64. -/
def ofPointerSize (bytes : Nat) : Width := if bytes = 4 then bits32 else bits64

def pointerSize : Width → Nat
  | bits32 => 4
  | bits64 => 8

def truncate : Width → UInt64 → UInt64
  | bits32, v => v &&& 0xFFFFFFFF
  | bits64, v => v

end Width

inductive EvalError where
  /-- The operator found too few operands. -/
  | stackUnderflow (operator : String)
  | unknownIdentifier (name : String)
  | divideByZero
  | invalidToken (text : String)
  | memoryRead (address : Address)
  /-- The wrong number of operands is left at the end. -/
  | unbalancedStack (count : Nat)
  /-- The frame address or return address has no rule. -/
  | missingRule (name : String)
  | unexpectedAssignment
  | badAssignment
  deriving DecidableEq, Repr

namespace EvalError

def message : EvalError → String
  | stackUnderflow operator => "stack underflow at token " ++ Quoted.text operator
  | unknownIdentifier name => "unknown identifier " ++ name
  | divideByZero => "division by zero"
  | invalidToken text => "invalid token " ++ Quoted.text text
  | memoryRead address => "unable to read memory at " ++ address.text
  | unbalancedStack count => "expression left " ++ toString count ++ " values on the stack"
  | missingRule name => "no " ++ name ++ " rule in effect"
  | unexpectedAssignment => "assignment not allowed in value expression"
  | badAssignment => "assignment target is not an identifier"

instance : ToString EvalError := ⟨message⟩

end EvalError

inductive Operand where
  | value (v : UInt64)
  | identifier (name : String)
  deriving DecidableEq, Repr

structure Evaluator where
  memory : Memory
  width : Width := .bits64

namespace BinaryOp

/-- The result of an operator on two words, undefined for a zero divisor. -/
def result? : BinaryOp → UInt64 → UInt64 → Option UInt64
  | add, a, b => some (a + b)
  | sub, a, b => some (a - b)
  | mul, a, b => some (a * b)
  | div, a, b => if b = 0 then none else some (a / b)
  | mod, a, b => if b = 0 then none else some (a % b)
  | align, a, b => some (a &&& -b)

end BinaryOp

namespace Evaluator

variable (e : Evaluator)

def resolve (registers : Registers) : Operand → Except EvalError UInt64
  | .value v => .ok (e.width.truncate v)
  | .identifier name =>
    match registers.get? name with
    | some v => .ok (e.width.truncate v)
    | none => .error (.unknownIdentifier name)

/-- Takes the value on top of the stack for `operator`. -/
def pop (registers : Registers) (operator : String) :
    List Operand → Except EvalError (UInt64 × List Operand)
  | [] => .error (.stackUnderflow operator)
  | operand :: stack => do return (← e.resolve registers operand, stack)

/-- The word of the evaluator's width at `address`. -/
def readWord? (address : UInt64) : Option UInt64 :=
  match e.width with
  | .bits32 => (e.memory.read32? address).map UInt32.toUInt64
  | .bits64 => e.memory.read64? address

/-- What a token other than an assignment does to the stack. -/
def step (registers : Registers) (stack : List Operand) :
    Token → Except EvalError (List Operand)
  | .binary op => do
    -- The right operand is on top.
    let (b, stack) ← e.pop registers op.symbol.toString stack
    let (a, stack) ← e.pop registers op.symbol.toString stack
    match op.result? a b with
    | some v => return .value (e.width.truncate v) :: stack
    | none => throw .divideByZero
  | .dereference => do
    let (address, stack) ← e.pop registers "^" stack
    match e.readWord? address with
    -- A word read from memory has the right width already.
    | some v => return .value v :: stack
    | none => throw (.memoryRead ⟨address⟩)
  | .assign => .error .unexpectedAssignment
  | .number v => .ok (.value v :: stack)
  | .identifier name => .ok (.identifier name :: stack)
  | .malformed text => .error (.invalidToken text)

def runExpression (registers : Registers) (stack : List Operand) (ts : List Token) :
    Except EvalError (List Operand) :=
  ts.foldlM (e.step registers) stack

def single (registers : Registers) : List Operand → Except EvalError UInt64
  | [operand] => e.resolve registers operand
  | stack => .error (.unbalancedStack stack.length)

def valueOfTokens (registers : Registers) (ts : List Token) : Except EvalError UInt64 := do
  e.single registers (← e.runExpression registers [] ts)

def value (registers : Registers) (expression : String) : Except EvalError UInt64 :=
  e.valueOfTokens registers (tokens expression)

/-- Assigns the value on top of the stack to the identifier below it. -/
def assign (registers : Registers) (stack : List Operand) :
    Except EvalError (Registers × List Operand) := do
  match ← e.pop registers "=" stack with
  | (v, .identifier name :: stack) => return (registers.insert name v, stack)
  | _ => throw .badAssignment

/-- Runs a program given by its tokens. The registers hold the assignments made up to its end or up
to the error that stopped it. -/
def runProgram (registers : Registers) (stack : List Operand) :
    List Token → Registers × Option EvalError
  | [] => (registers, if stack.isEmpty then none else some (.unbalancedStack stack.length))
  | .assign :: ts =>
    match e.assign registers stack with
    | .ok (registers, stack) => runProgram registers stack ts
    | .error err => (registers, some err)
  | t :: ts =>
    match e.step registers stack t with
    | .ok stack => runProgram registers stack ts
    | .error err => (registers, some err)

def run (registers : Registers) (program : String) : Registers × Option EvalError :=
  e.runProgram registers [] (tokens program)

end Evaluator

end Postfix

end Symbolication
