import Symbolication.Proofs.RangeMap.Keep
import Symbolication.SymbolFile.Query

/-!
What the records of a whole file say about an offset, without tables: every rule here looks at the
list of all records. A function or source line counts if its range stays when the file is read from
the top, a file number has the last name that the file gives it, and a public symbol is the first at
its address.
-/

namespace Symbolication.SymbolFile

/-- A `FUNC` record with the line records that belong to it. -/
structure FunctionBlock where
  head : FunctionHead
  lines : List (Range SourceLine)

namespace FunctionBlock

def range (b : FunctionBlock) : Range FunctionBlock := ⟨b.head.base, b.head.size, b⟩

/-- The line record for `offset`, among those of the function that stay. -/
def lineAt? (b : FunctionBlock) (offset : UInt64) : Option (Range SourceLine) :=
  (Range.keep b.lines).find? (·.covers offset)

end FunctionBlock

/-- The line records that come before the next `FUNC` record. -/
def leadingLines : List Record → List (Range SourceLine)
  | [] => []
  | .function _ :: _ => []
  | .line base size source :: rs => ⟨base, size, source⟩ :: leadingLines rs
  | _ :: rs => leadingLines rs

/-- The functions of a file. Line records belong to the closest `FUNC` record before them. -/
def functionBlocks : List Record → List FunctionBlock
  | [] => []
  | .function head :: rs => ⟨head, leadingLines rs⟩ :: functionBlocks rs
  | _ :: rs => functionBlocks rs

/-- The functions that stay, in the order of the file. -/
def keptFunctions (rs : List Record) : List (Range FunctionBlock) :=
  Range.keep ((functionBlocks rs).map FunctionBlock.range)

/-- The name that the record gives to the file `number`. -/
def Record.fileNamed? (number : UInt32) : Record → Option String
  | .file n name => if n = number then some name else none
  | _ => none

/-- The last name that the records give to the file `number`. -/
def lastFileName? (rs : List Record) (number : UInt32) : Option String :=
  (rs.filterMap (Record.fileNamed? number)).getLast?

/-- The public symbol that the record puts at `address`. -/
def Record.publicAt? (address : UInt64) : Record → Option PublicSymbol
  | .publicSymbol a symbol => if a = address then some symbol else none
  | _ => none

/-- The first public symbol that the records put at `address`. -/
def firstPublic? (rs : List Record) (address : UInt64) : Option PublicSymbol :=
  rs.findSome? (Record.publicAt? address)

def Record.publicAddress? : Record → Option UInt64
  | .publicSymbol a _ => some a
  | _ => none

/-- The addresses other than 0 of public symbols at or below `offset`. -/
def publicAddresses (rs : List Record) (offset : UInt64) : List UInt64 :=
  (rs.filterMap Record.publicAddress?).filter fun p => p ≠ 0 ∧ p ≤ offset

/-- The greatest of those addresses. -/
def nearestPublic? (rs : List Record) (offset : UInt64) : Option UInt64 :=
  (publicAddresses rs offset).find? fun p => (publicAddresses rs offset).all (· ≤ p)

/-- The record that names the code at an offset. -/
inductive SymbolRecord where
  | function (block : FunctionBlock)
  | publicSymbol (address : UInt64) (symbol : PublicSymbol)

/-- The function that covers `offset`, or else the public symbol nearest below it, unless a function
that stays starts at the public symbol's address or between it and `offset`. -/
def symbolRecord? (rs : List Record) (offset : UInt64) : Option SymbolRecord :=
  match (keptFunctions rs).find? (·.covers offset) with
  | some f => some (.function f.value)
  | none =>
    (nearestPublic? rs offset).bind fun p =>
      if (keptFunctions rs).any fun f => p ≤ f.base ∧ f.base ≤ offset then none
      else (firstPublic? rs p).map (.publicSymbol p)

/-- The frame that the records give for a frame at `offset` of a module mapped at `base`. -/
def resolved (rs : List Record) (base : Address) (offset : UInt64) (frame : StackFrame) :
    StackFrame :=
  match symbolRecord? rs offset with
  | none => frame
  | some (.publicSymbol address symbol) =>
    { frame with
      functionName := some (.ofRaw symbol.name)
      functionBase := some (base.add address) }
  | some (.function block) =>
    let named := { frame with
      functionName := some (.ofRaw block.head.name)
      functionBase := some (base.add block.head.base) }
    match block.lineAt? offset with
    | none => named
    | some r =>
      { named with
        sourceFile := lastFileName? rs r.value.file
        sourceLine := some r.value.line
        sourceLineBase := some (base.add r.base) }

end Symbolication.SymbolFile
