import Symbolication.Demangling.Demangle

/-!
Names of functions: as a symbol file writes them, in their readable form when they are mangled, and
with the language that their shape suggests.
-/

namespace Symbolication

inductive SymbolLanguage where
  | rust
  | cpp
  | c
  | unknown
  deriving DecidableEq, Repr

namespace SymbolLanguage

def text : SymbolLanguage → String
  | rust => "rust"
  | cpp => "c++"
  | c => "c"
  | unknown => "unknown"

instance : ToString SymbolLanguage := ⟨text⟩

end SymbolLanguage

structure SymbolName where
  raw : String
  demangled : Option String
  language : SymbolLanguage
  deriving DecidableEq, Repr

namespace SymbolName

/-- The readable form if there is one, else the name as it was written. -/
def display (n : SymbolName) : String := n.demangled.getD n.raw

instance : ToString SymbolName := ⟨display⟩

/-- Whether `part` stands somewhere in `cs`. -/
def occursIn (part : List Char) : List Char → Bool
  | [] => part.isEmpty
  | c :: cs => part.isPrefixOf (c :: cs) || occursIn part cs

/-- The language of a name that is not a mangled Rust name. -/
def languageOfShape (raw : List Char) : SymbolLanguage :=
  if "_Z".toList.isPrefixOf raw || occursIn "::".toList raw || raw.contains '(' then .cpp
  else if !raw.isEmpty && raw.all (fun c => c.isAlphanum || c = '_' || c = '@') then .c
  else .unknown

/-- The name that a symbol file spells `raw`. -/
def ofRaw (raw : String) : SymbolName :=
  match Demangling.demangle? raw.toList with
  | some readable => ⟨raw, some readable, .rust⟩
  | none => ⟨raw, none, languageOfShape raw.toList⟩

end SymbolName

end Symbolication
