import Symbolication.Text.Token

/-!
Call-frame rule sets. A rule set is written as one or more groups, each a name with a colon after it
and the tokens of a postfix expression:

    .cfa: $rsp 16 + .ra: .cfa 8 - ^ $rbp: .cfa 16 - ^

A rule is delivered as soon as its group is complete, so a rule set that is refused part way has
delivered the groups before the place where it went wrong.
-/

namespace Symbolication.Cfi

inductive Target where
  /-- The canonical frame address. -/
  | cfa
  /-- The return address. -/
  | ra
  | register (name : String)
  deriving DecidableEq, Repr

namespace Target

def ofName (name : String) : Target :=
  if name = ".cfa" then cfa
  else if name = ".ra" then ra
  else register name

def name : Target → String
  | cfa => ".cfa"
  | ra => ".ra"
  | register n => n

end Target

/-- A postfix expression for the value of `target`. -/
structure Rule where
  target : Target
  expression : String
  deriving DecidableEq, Repr

/-- Why a rule set is refused. -/
inductive RuleError where
  | empty
  /-- A colon stands alone. -/
  | emptyName
  /-- There is an expression token before the first name. -/
  | missingName
  /-- The name `name` is followed by another name or by the end. -/
  | missingExpression (name : String)
  deriving DecidableEq, Repr

namespace RuleError

def message : RuleError → String
  | empty => "empty CFI rule set"
  | emptyName => "CFI register name is empty"
  | missingName => "CFI expression has no register name"
  | missingExpression name => "CFI rule for " ++ name ++ " has no expression"

instance : ToString RuleError := ⟨message⟩

end RuleError

/-- What became of a rule set: the rules delivered, in order, and why it was refused, if it was. -/
structure Delivery where
  rules : List Rule
  error : Option RuleError
  deriving DecidableEq, Repr

namespace Delivery

def refuse (e : RuleError) : Delivery := ⟨[], some e⟩

def after (r : Rule) (d : Delivery) : Delivery := { d with rules := r :: d.rules }

end Delivery

/-- The name that a token stands for: what comes before a colon at its end. -/
def nameOf? (token : List Char) : Option (List Char) :=
  match token.reverse with
  | ':' :: front => some front.reverse
  | _ => none

def ruleOf (name : List Char) (expression : List (List Char)) : Rule where
  target := .ofName (String.ofList name)
  expression := String.ofList (Text.joinTokens expression)

/-- Reads on inside the group of `name`, whose expression tokens so far are `expression`, last
first. -/
def deliverGroup (name : List Char) (expression : List (List Char)) : List (List Char) → Delivery
  | [] =>
    if expression.isEmpty then .refuse (.missingExpression (String.ofList name))
    else ⟨[ruleOf name expression.reverse], none⟩
  | token :: tokens =>
    match nameOf? token with
    | none => deliverGroup name (token :: expression) tokens
    | some next =>
      -- A lone colon is the fault to name, also where the expression before it is missing.
      if next.isEmpty then .refuse .emptyName
      else if expression.isEmpty then .refuse (.missingExpression (String.ofList name))
      else .after (ruleOf name expression.reverse) (deliverGroup next [] tokens)

def deliverTokens : List (List Char) → Delivery
  | [] => .refuse .empty
  | token :: tokens =>
    match nameOf? token with
    | none => .refuse .missingName
    | some name => if name.isEmpty then .refuse .emptyName else deliverGroup name [] tokens

def deliver (ruleSet : String) : Delivery := deliverTokens (Text.tokens ruleSet.toList)

end Symbolication.Cfi
