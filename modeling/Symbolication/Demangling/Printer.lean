import Symbolication.Demangling.Cursor
import Symbolication.Demangling.Page
import Symbolication.Demangling.Punycode
import Symbolication.Text.Quoted

/-!
Writing readable names while mangled ones are read. A fault shows in the text where it was met;
after it, whatever would be read shows as a question mark. A printer may also be silent, to find out
where a name ends. The text is cut off when it grows too long.
-/

namespace Symbolication.Demangling

structure Printer where
  /-- The whole name, which references lead back into. -/
  name : List Char
  /-- Where reading goes on; `none` after a fault. -/
  cursor : Option Cursor
  /-- What is written on; `none` for a silent printer. -/
  page : Option Page
  /-- How many lifetimes the binders around have introduced. -/
  lifetimes : Nat := 0
  deriving DecidableEq, Repr

/-- The text has no room for what was to be written. -/
inductive OutOfRoom where
  | outOfRoom
  deriving DecidableEq, Repr

abbrev Printing := EStateM OutOfRoom Printer

namespace Printing

def isSilent : Printing Bool := return (← get).page.isNone

def isFaulty : Printing Bool := return (← get).cursor.isNone

def emit (piece : String) : Printing Unit := do
  let p ← get
  match p.page with
  | none => return ()
  | some page =>
    match page.write? piece with
    | some page => set { p with page := some page }
    | none => throw .outOfRoom

def emitAll : List String → Printing Unit
  | [] => return ()
  | piece :: rest => do
    emit piece
    emitAll rest

def emitChar (c : Char) : Printing Unit := emit c.toString

def emitChars (cs : List Char) : Printing Unit := emitAll (cs.map Char.toString)

def emitNat (n : Nat) : Printing Unit := emit (toString n)

/-- Shows a fault and reads no further. -/
def fault (f : Fault) : Printing Unit := do
  emit f.text
  modify fun p => { p with cursor := none }

def invalid : Printing Unit := fault .invalid

/-- Reads something. If that fails, or something failed before, the failure is shown and there is
nothing to go on with. -/
def read {α : Type} (r : Reader α) : Printing (Option α) := do
  match (← get).cursor with
  | none =>
    emit "?"
    return none
  | some c =>
    match r.run c with
    | .ok (a, c) =>
      modify fun p => { p with cursor := some c }
      return some a
    | .error f =>
      fault f
      return none

/-- Passes `x` if it comes next, and tells whether it did. -/
def eat (x : Char) : Printing Bool := do
  match (← get).cursor.map (Reader.eat x).run with
  | some (.ok (true, c)) =>
    modify fun p => { p with cursor := some c }
    return true
  | _ => return false

def ascend : Printing Unit :=
  modify fun p => { p with cursor := p.cursor.map fun c => { c with depth := c.depth - 1 } }

/-- Goes back before the character `x`, which was just read. -/
def unread (x : Char) : Printing Unit :=
  modify fun p => { p with
    cursor := p.cursor.map fun c => { c with rest := x :: c.rest, position := c.position - 1 } }

def silently (act : Printing Unit) : Printing Unit := do
  let page := (← get).page
  modify fun p => { p with page := none }
  act
  modify fun p => { p with page }

/-- Reads a reference back and does `act` at the place it leads to, then goes on after it. A silent
printer does not follow references. -/
def atBackref (act : Printing Unit) : Printing Unit := do
  let some target ← read (Reader.backref (← get).name) | return
  if ← isSilent then return
  let after := (← get).cursor
  modify fun p => { p with cursor := some target }
  act
  -- A fault at the place referred to ends there.
  modify fun p => { p with cursor := after }

/-- Does `item` for each element of a list up to an `E`, with `separator` between them, and counts
them from `count` on. An element takes at least one character, so `fuel` lasts if it exceeds the
number of characters left. -/
def separatedFrom (separator : String) (item : Printing Unit) :
    (fuel : Nat) → (count : Nat) → Printing Nat
  | 0, count => return count
  | fuel + 1, count => do
    if ← isFaulty then return count
    if ← eat 'E' then return count
    if count > 0 then emit separator
    item
    separatedFrom separator item fuel (count + 1)

/-- More than the number of characters left. -/
def left : Printing Nat := return ((← get).cursor.map (·.rest.length)).getD 0 + 1

def separated (separator : String) (item : Printing Unit) : Printing Nat := do
  separatedFrom separator item (← left) 0

/-- An identifier in full, or in punycode if that cannot be decoded. -/
def emitIdent (i : Ident) : Printing Unit :=
  match Punycode.decode? i.ascii i.deltas with
  | some cs => emitChars cs
  | none =>
    if i.deltas.isEmpty then emit (String.ofList i.ascii)
    else do
      emit "punycode\x7b"
      if !i.ascii.isEmpty then
        emit (String.ofList i.ascii)
        emit "-"
      emit (String.ofList i.deltas)
      emit "\x7d"

/-- Characters between two characters `quote`; a quote of the other kind needs no escape. -/
def emitQuoted (quote : Char) (cs : List Char) : Printing Unit := do
  emitChar quote
  emitChars (cs.flatMap fun c => (Quoted.escape quote c).toList)
  emitChar quote

/-- The lifetime `index` binders out; 0 is one without a name. -/
def emitLifetime (index : Nat) : Printing Unit := do
  if ← isSilent then return
  emit "'"
  let bound := (← get).lifetimes
  if index = 0 then emit "_"
  else if bound < index then invalid
  else
    let depth := bound - index
    if depth < 26 then emitChar (Char.ofNat ('a'.toNat + depth))
    else do
      emit "_"
      emitNat depth

/-- Introduces `more` lifetimes and writes them, a comma before each but the first. -/
def introduce (first : Bool) : (more : Nat) → Printing Unit
  | 0 => return ()
  | more + 1 => do
    if !first then emit ", "
    modify fun p => { p with lifetimes := p.lifetimes + 1 }
    emitLifetime 1
    introduce false more

def inBinder (act : Printing Unit) : Printing Unit := do
  let some count ← read (Reader.taggedInteger 'G') | return
  -- A silent printer does not keep count of lifetimes, as it does not check them.
  if ← isSilent then
    act
  else
    if count > 0 then
      emit "for<"
      introduce true count
      emit "> "
    act
    modify fun p => { p with lifetimes := p.lifetimes - count }

end Printing

end Symbolication.Demangling
