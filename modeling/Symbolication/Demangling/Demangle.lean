import Symbolication.Demangling.Legacy
import Symbolication.Demangling.V0

/-!
Readable forms of mangled names. Compilers and linkers append suffixes to mangled names; those that
come from link-time optimisation are dropped, and others are kept as they are.
-/

namespace Symbolication.Demangling

/-- What link-time optimisation puts before the mark it appends. -/
def optimiserMark : List Char := ".llvm.".toList

/-- What comes before and after the first occurrence of `mark`. -/
def splitAtMark? (mark : List Char) : List Char → Option (List Char × List Char)
  | [] => (mark.isPrefixOf? []).map ([], ·)
  | c :: cs =>
    match mark.isPrefixOf? (c :: cs) with
    | some after => some ([], after)
    | none => (splitAtMark? mark cs).map fun (before, after) => (c :: before, after)

def isMarkChar (c : Char) : Bool := ('A' ≤ c && c ≤ 'F') || ('0' ≤ c && c ≤ '9') || c = '@'

/-- A name without the mark that link-time optimisation appended. -/
def dropOptimiserMark (name : List Char) : List Char :=
  match splitAtMark? optimiserMark name with
  | some (before, after) => if after.all isMarkChar then before else name
  | none => name

/-- Whether a suffix is one that compilers append: a point, and visible ASCII characters. -/
def isSuffix (cs : List Char) : Bool :=
  cs.isEmpty || (cs.head? = some '.' && cs.all fun c => 0x20 < c.toNat && c.toNat < 0x7F)

def demangle? (name : List Char) : Option String := do
  let name := dropOptimiserMark name
  let (readable, suffix) ← Legacy.demangle? name <|> V0.demangle? name
  -- A name that goes on in any other way was not mangled after all.
  if isSuffix suffix then return readable ++ String.ofList suffix else none

end Symbolication.Demangling
