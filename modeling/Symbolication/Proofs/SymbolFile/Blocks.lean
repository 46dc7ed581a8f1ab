import Symbolication.Proofs.SymbolFile.Contents

/-!
Symbol files cut into blocks. A block is a `FUNC` record with the line records that belong to it, or
any other record by itself. Each block could be a file of its own, so blocks may change places as long
as a header stays first, and the functions of the file change places with them.
-/

namespace Symbolication.SymbolFile

section Cutting

variable {α β : Type} (kind : α → Option RecordKind)

/-- The line records that come before the next `FUNC` record. -/
def ownLines : List α → List α
  | [] => []
  | a :: rest =>
    match kind a with
    | some .function => []
    | some .line => a :: ownLines rest
    | _ => ownLines rest

/-- The blocks of a file, in the order in which they begin. -/
def blocks : List α → List (List α)
  | [] => []
  | a :: rest =>
    match kind a with
    | some .function => (a :: ownLines kind rest) :: blocks rest
    | some .line => blocks rest
    | _ => [a] :: blocks rest

/-- The blocks hold all that is in the file but lines before the first function. -/
theorem flatten_blocks_perm (as : List α) :
    ((blocks kind as).flatten ++ ownLines kind as).Perm as := by
  induction as with
  | nil => exact .nil
  | cons a rest ih =>
    rw [blocks, ownLines]
    split
    · -- A `FUNC` record takes the lines that were waiting for it into its block.
      rw [List.append_nil, List.flatten_cons, List.cons_append]
      exact (List.perm_append_comm.trans ih).cons a
    · -- A line waits for the `FUNC` record before it.
      exact List.perm_middle.trans (ih.cons a)
    · exact ih.cons a

variable (kind' : β → Option RecordKind) (f? : α → Option β)

theorem ownLines_filterMap (as : List α)
    (h : ∀ a ∈ as, ∃ b, f? a = some b ∧ kind' b = kind a) :
    ownLines kind' (as.filterMap f?) = (ownLines kind as).filterMap f? := by
  induction as with
  | nil => rfl
  | cons a rest ih =>
    obtain ⟨⟨b, hb, hkind⟩, hrest⟩ := List.forall_mem_cons.mp h
    rw [List.filterMap_cons_some hb, ownLines, ownLines, hkind]
    split
    · rfl
    · rw [List.filterMap_cons_some hb, ih hrest]
    · exact ih hrest

/-- Reading the elements of a file one by one does not change how it is cut. -/
theorem blocks_filterMap (as : List α) (h : ∀ a ∈ as, ∃ b, f? a = some b ∧ kind' b = kind a) :
    blocks kind' (as.filterMap f?) = (blocks kind as).map (List.filterMap f?) := by
  induction as with
  | nil => rfl
  | cons a rest ih =>
    obtain ⟨⟨b, hb, hkind⟩, hrest⟩ := List.forall_mem_cons.mp h
    rw [List.filterMap_cons_some hb, blocks, blocks, hkind]
    split
    · rw [List.map_cons, List.filterMap_cons_some hb, ih hrest, ownLines_filterMap kind kind' f? rest hrest]
    · exact ih hrest
    · rw [List.map_cons, List.filterMap_cons_some hb, List.filterMap_nil, ih hrest]

end Cutting

def Record.kind? (r : Record) : Option RecordKind := some r.kind

theorem leadingLines_ownLines (rs : List Record) :
    leadingLines (ownLines Record.kind? rs) = leadingLines rs := by
  induction rs with
  | nil => rfl
  | cons r rs ih =>
    cases r with
    | function => rfl
    | line base size source => exact congrArg (⟨base, size, source⟩ :: ·) ih
    | ignored | header | file | publicSymbol | layout | mismatchedLayout | cfiInit | cfiDelta => exact ih

theorem functionBlocks_ownLines (rs : List Record) :
    functionBlocks (ownLines Record.kind? rs) = [] := by
  induction rs with
  | nil => rfl
  | cons r rs ih =>
    cases r with
    | function => rfl
    | ignored | header | file | line | publicSymbol | layout | mismatchedLayout | cfiInit | cfiDelta =>
      exact ih

theorem placed_ownLines (rs : List Record) : placed true true (ownLines Record.kind? rs) = true := by
  induction rs with
  | nil => rfl
  | cons r rs ih =>
    cases r with
    | function => rfl
    | ignored | header | file | line | publicSymbol | layout | mismatchedLayout | cfiInit | cfiDelta =>
      exact ih

/-- A file that does not begin with lines of no function has no such lines. -/
theorem ownLines_eq_nil (rs : List Record) (h : leadingLines rs = []) :
    ownLines Record.kind? rs = [] := by
  induction rs with
  | nil => rfl
  | cons r rs ih =>
    cases r with
    | function => rfl
    | line => cases h
    | ignored | header | file | publicSymbol | layout | mismatchedLayout | cfiInit | cfiDelta =>
      exact ih h

/-- A block could be a file of its own. -/
theorem placed_of_mem_blocks (rs : List Record) (b : List Record)
    (hb : b ∈ blocks Record.kind? rs) : placed false false b = true := by
  induction rs with
  | nil => exact absurd hb List.not_mem_nil
  | cons r rs ih =>
    cases r with
    | function head =>
      rcases List.mem_cons.mp hb with hhere | hrest
      · rw [hhere]
        exact placed_ownLines rs
      · exact ih hrest
    | line => exact ih hb
    | ignored | header | file | publicSymbol | layout | mismatchedLayout | cfiInit | cfiDelta =>
      rcases List.mem_cons.mp hb with hhere | hrest
      · rw [hhere]
        rfl
      · exact ih hrest

theorem flatMap_functionBlocks_blocks (rs : List Record) :
    (blocks Record.kind? rs).flatMap functionBlocks = functionBlocks rs := by
  induction rs with
  | nil => rfl
  | cons r rs ih =>
    cases r with
    | function head =>
      have hhere : functionBlocks (.function head :: ownLines Record.kind? rs) =
          [⟨head, leadingLines rs⟩] := by
        rw [functionBlocks, leadingLines_ownLines, functionBlocks_ownLines]
      have hcut : blocks Record.kind? (.function head :: rs) =
          (.function head :: ownLines Record.kind? rs) :: blocks Record.kind? rs := rfl
      rw [hcut, List.flatMap_cons, hhere, ih]
      rfl
    | ignored | header | file | line | publicSymbol | layout | mismatchedLayout | cfiInit | cfiDelta =>
      exact ih

/-- Blocks that could be files of their own make up a file if no header comes after the first record. -/
theorem placed_flatten (bs : List (List Record)) (h : ∀ b ∈ bs, placed false false b = true)
    (hheader : ∀ r ∈ bs.flatten.tail, r.kind ≠ .header) : placed false false bs.flatten = true := by
  induction bs with
  | nil => rfl
  | cons b bs ih =>
    obtain ⟨hb, hbs⟩ := List.forall_mem_cons.mp h
    cases b with
    | nil => exact ih hbs hheader
    | cons r rs =>
      -- Only the first record of all may be a header, so the other blocks may stand anywhere.
      have hrest : ∀ q ∈ bs.flatten, q.kind ≠ .header := by
        intro q hq
        exact hheader q (List.mem_append_right rs hq)
      apply placed_append (r :: rs) bs.flatten hrest hb
      apply ih hbs
      intro q hq
      exact hrest q (List.mem_of_mem_tail hq)

/-- Blocks that could be files of their own have their own functions, whatever comes before them. -/
theorem functionBlocks_flatten (bs : List (List Record)) (h : ∀ b ∈ bs, placed false false b = true) :
    leadingLines bs.flatten = [] ∧ functionBlocks bs.flatten = bs.flatMap functionBlocks := by
  induction bs with
  | nil => exact ⟨rfl, rfl⟩
  | cons b bs ih =>
    obtain ⟨hb, hbs⟩ := List.forall_mem_cons.mp h
    obtain ⟨hleading, hblocks⟩ := ih hbs
    rw [List.flatten_cons, leadingLines_append b _ hleading, functionBlocks_append b _ hleading, hblocks,
      List.flatMap_cons]
    exact ⟨leadingLines_of_placed false b hb, rfl⟩

section Reordered

variable (rs : List Record) (bs : List (List Record)) (hperm : bs.Perm (blocks Record.kind? rs))

include hperm

theorem placed_of_perm_blocks (hheader : ∀ r ∈ bs.flatten.tail, r.kind ≠ .header) :
    placed false false bs.flatten = true := by
  apply placed_flatten bs _ hheader
  intro b hb
  exact placed_of_mem_blocks rs b (hperm.mem_iff.mp hb)

/-- The functions of the file change places with its blocks. -/
theorem functionBlocks_perm : (functionBlocks bs.flatten).Perm (functionBlocks rs) := by
  have hplaced : ∀ b ∈ bs, placed false false b = true := by
    intro b hb
    exact placed_of_mem_blocks rs b (hperm.mem_iff.mp hb)
  rw [(functionBlocks_flatten bs hplaced).2, ← flatMap_functionBlocks_blocks rs]
  exact hperm.flatMap_right functionBlocks

/-- The blocks of a file that is accepted hold all its records. -/
theorem flatten_perm (hplaced : placed false false rs = true) : bs.flatten.Perm rs := by
  have hall := flatten_blocks_perm Record.kind? rs
  rw [ownLines_eq_nil rs (leadingLines_of_placed false rs hplaced), List.append_nil] at hall
  exact hperm.flatten.trans hall

end Reordered

end Symbolication.SymbolFile
