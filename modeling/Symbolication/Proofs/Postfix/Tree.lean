import Symbolication.Postfix.Token

/-!
Expressions as trees. A sequence of tokens builds trees on a stack, with no values involved; it builds
a single tree exactly if it writes that tree with each operator after its operands, so no two trees
are written alike.
-/

namespace Symbolication.Postfix

inductive Expr where
  | number (value : UInt64)
  | identifier (name : String)
  | binary (op : BinaryOp) (left right : Expr)
  | dereference (address : Expr)
  deriving DecidableEq, Repr

namespace Expr

/-- The tree with each operator after its operands. -/
def tokens : Expr → List Token
  | number v => [.number v]
  | identifier name => [.identifier name]
  | binary op l r => l.tokens ++ r.tokens ++ [.binary op]
  | dereference t => t.tokens ++ [.dereference]

/-- The trees on a stack, topmost first, after one more token. -/
def push? (stack : List Expr) : Token → Option (List Expr)
  | .number v => some (.number v :: stack)
  | .identifier name => some (.identifier name :: stack)
  | .binary op =>
    match stack with
    | r :: l :: rest => some (.binary op l r :: rest)
    | _ => none
  | .dereference =>
    match stack with
    | t :: rest => some (.dereference t :: rest)
    | _ => none
  | .assign | .malformed _ => none

def build? (stack : List Expr) (ts : List Token) : Option (List Expr) := ts.foldlM push? stack

/-- The tokens of the trees on a stack, from the bottom up. -/
def written (stack : List Expr) : List Token := stack.reverse.flatMap tokens

theorem written_cons (t : Expr) (stack : List Expr) :
    written (t :: stack) = written stack ++ t.tokens := by
  simp only [written, List.reverse_cons, List.flatMap_append, List.flatMap_singleton]

theorem build?_cons (stack : List Expr) (tok : Token) (ts : List Token) :
    build? stack (tok :: ts) = (push? stack tok).bind fun next => build? next ts := rfl

/-- The tokens of a tree put the tree on any stack, whatever follows. -/
theorem build?_tokens_append (t : Expr) (stack : List Expr) (rest : List Token) :
    build? stack (t.tokens ++ rest) = build? (t :: stack) rest := by
  induction t generalizing stack rest with
  | number v => rfl
  | identifier name => rfl
  | binary op l r ihl ihr =>
    rw [tokens, List.append_assoc, List.append_assoc, ihl, ihr]
    rfl
  | dereference t ih =>
    rw [tokens, List.append_assoc, ih]
    rfl

theorem written_of_push? (stack next : List Expr) (tok : Token) (h : push? stack tok = some next) :
    written next = written stack ++ [tok] := by
  cases tok with
  | number v =>
    cases h
    exact written_cons _ _
  | identifier name =>
    cases h
    exact written_cons _ _
  | binary op =>
    match stack with
    | r :: l :: rest =>
      cases h
      simp only [written_cons, tokens, List.append_assoc]
    | [_] => cases h
    | [] => cases h
  | dereference =>
    match stack with
    | t :: rest =>
      cases h
      simp only [written_cons, tokens, List.append_assoc]
    | [] => cases h
  | assign => cases h
  | malformed text => cases h

theorem written_of_build? (stack next : List Expr) (ts : List Token)
    (h : build? stack ts = some next) : written next = written stack ++ ts := by
  induction ts generalizing stack with
  | nil =>
    cases h
    exact (List.append_nil _).symm
  | cons tok ts ih =>
    rw [build?_cons] at h
    obtain ⟨mid, hmid, hnext⟩ := Option.bind_eq_some_iff.mp h
    rw [ih mid hnext, written_of_push? stack mid tok hmid, List.append_assoc]
    rfl

/-- Tokens build a single tree exactly if they are the tokens of that tree. -/
theorem build?_eq_singleton_iff (ts : List Token) (t : Expr) :
    build? [] ts = some [t] ↔ ts = t.tokens := by
  constructor
  · intro h
    have hw := written_of_build? [] [t] ts h
    rw [written_cons] at hw
    exact hw.symm
  · intro h
    rw [h]
    have hb := build?_tokens_append t [] []
    rw [List.append_nil] at hb
    exact hb

theorem tokens_injective (t u : Expr) (h : t.tokens = u.tokens) : t = u := by
  have ht := (build?_eq_singleton_iff t.tokens t).mpr rfl
  have hu := (build?_eq_singleton_iff t.tokens u).mpr h
  rw [ht] at hu
  cases hu
  rfl

end Expr

end Symbolication.Postfix
