import Symbolication.Proofs.SymbolFile.Grammar
import Symbolication.Proofs.SymbolFile.LookUp

/-!
The layout of a frame, read off the whole file: the layout record with a program that covers the
offset, or else the one without, or else the size of the parameters of the symbol that a look-up
attaches. Layout records of other types, and those that contradict themselves, might as well not be
in the file.
-/

namespace Symbolication.SymbolFile

open Text (lines FieldReader)

/-- The fields of the layout record on a line. -/
def layoutFields? (line : List Char) : Option LayoutFields :=
  ("STACK WIN ".toList.isPrefixOf? line).bind (FieldReader.read? LayoutFields.reader)

theorem layoutFields?_eq_some_iff (line : List Char) (f : LayoutFields) :
    layoutFields? line = some f ↔ f.Writes line := by
  rw [layoutFields?, Option.bind_eq_some_iff, LayoutFields.writes_iff]
  apply exists_congr
  intro body
  apply and_congr_left'
  have hstart : "STACK WIN ".toList.isPrefixOf? line = some body ↔
      "STACK WIN ".toList ++ body = line := List.isPrefixOf?_eq_some_iff_append_eq
  rw [hstart]
  exact eq_comm

/-- The fields of the layout records of a text, in order. -/
def layoutsOf (text : List Char) : List LayoutFields := (lines text).filterMap layoutFields?

namespace LayoutFields

/-- The layout of a record of type 4 with flag 1. -/
def frameData? (f : LayoutFields) : Option (Range FrameLayout) :=
  if f.type = 4 ∧ f.hasProgram = true then
    some ⟨f.base, f.size, f.layout false (some (String.ofList f.last))⟩
  else none

/-- The layout of a record of type 0 with flag 0. -/
def fpo? (f : LayoutFields) : Option (Range FrameLayout) :=
  if f.type = 0 ∧ f.hasProgram = false then
    (Digits.hex64? f.last).map fun flag => ⟨f.base, f.size, f.layout (flag != 0) none⟩
  else none

/-- The record is of another type, or its flag contradicts its type. -/
def Idle (f : LayoutFields) : Prop :=
  ¬(f.type = 4 ∧ f.hasProgram = true) ∧ ¬(f.type = 0 ∧ f.hasProgram = false)

instance (f : LayoutFields) : Decidable f.Idle := inferInstanceAs (Decidable (_ ∧ _))

end LayoutFields

/-- The layouts with a program that stay, in the order of the file. -/
def keptFrameData (text : List Char) : List (Range FrameLayout) :=
  Range.keep ((layoutsOf text).filterMap LayoutFields.frameData?)

/-- The layouts of code without a frame pointer that stay. -/
def keptFpo (text : List Char) : List (Range FrameLayout) :=
  Range.keep ((layoutsOf text).filterMap LayoutFields.fpo?)

/-- The lines that do not hold an idle layout record. -/
def effectiveLines (text : List Char) : List (List Char) :=
  (lines text).filter fun line => ¬(layoutFields? line).any fun f => decide f.Idle

/-- The layout of the kind that the record stores. -/
def Record.layoutOfKind? (kind : LayoutKind) : Record → Option (Range FrameLayout)
  | .layout base size value => if value.kind = kind then some ⟨base, size, value⟩ else none
  | _ => none

theorem ofNumber_eq_fpo_iff (n : UInt32) : LayoutKind.ofNumber n = .fpo ↔ n = 0 := by
  unfold LayoutKind.ofNumber
  split_ifs <;> simp_all

/-- The records on the lines and the fields on the lines give the same layouts with a program. -/
theorem recordOfLine?_frameData (line : List Char) :
    (recordOfLine? line).bind (Record.layoutOfKind? .frameData) =
      (layoutFields? line).bind LayoutFields.frameData? := by
  apply Option.ext
  intro r
  simp only [Option.bind_eq_some_iff, recordOfLine?_eq_some_iff, layoutFields?_eq_some_iff]
  constructor
  · rintro ⟨record, hwrites, hr⟩
    cases hwrites with
    | programLayout f line hline htype hflag =>
      refine ⟨f, hline, ?_⟩
      rw [← hr, LayoutFields.frameData?, if_pos ⟨htype, hflag⟩]
      simp [Record.layoutOfKind?, LayoutFields.layout, LayoutFields.ofNumber_eq_frameData_iff, htype]
    | plainLayout f line n hline htype hflag hlast =>
      simp [Record.layoutOfKind?, LayoutFields.layout, LayoutFields.ofNumber_eq_frameData_iff,
        htype] at hr
    | _ => cases hr
  · rintro ⟨f, hline, hr⟩
    unfold LayoutFields.frameData? at hr
    split at hr
    · rename_i heffective
      refine ⟨_, .programLayout f line hline heffective.1 heffective.2, ?_⟩
      rw [← hr]
      simp [Record.layoutOfKind?, LayoutFields.layout, LayoutFields.ofNumber_eq_frameData_iff,
        heffective]
    · cases hr

theorem recordOfLine?_fpo (line : List Char) :
    (recordOfLine? line).bind (Record.layoutOfKind? .fpo) =
      (layoutFields? line).bind LayoutFields.fpo? := by
  apply Option.ext
  intro r
  simp only [Option.bind_eq_some_iff, recordOfLine?_eq_some_iff, layoutFields?_eq_some_iff]
  constructor
  · rintro ⟨record, hwrites, hr⟩
    cases hwrites with
    | programLayout f line hline htype hflag =>
      simp [Record.layoutOfKind?, LayoutFields.layout, ofNumber_eq_fpo_iff, htype] at hr
    | plainLayout f line n hline htype hflag hlast =>
      -- The flag fits every type but 4; only type 0 has a table.
      refine ⟨f, hline, ?_⟩
      simp only [Record.layoutOfKind?, LayoutFields.layout, ofNumber_eq_fpo_iff] at hr
      split at hr
      · rename_i hfpo
        rw [LayoutFields.fpo?, if_pos ⟨hfpo, hflag⟩, (Digits.hex64?_eq_some_iff _ n).mpr hlast]
        exact hr
      · cases hr
    | _ => cases hr
  · rintro ⟨f, hline, hr⟩
    unfold LayoutFields.fpo? at hr
    split at hr
    · rename_i heffective
      obtain ⟨htype, hflag⟩ := heffective
      obtain ⟨n, hn, rfl⟩ := Option.map_eq_some_iff.mp hr
      have hlast := (Digits.hex64?_eq_some_iff _ n).mp hn
      refine ⟨_, .plainLayout f line n hline (by rw [htype]; decide) hflag hlast, ?_⟩
      simp [Record.layoutOfKind?, LayoutFields.layout, ofNumber_eq_fpo_iff, htype]
    · cases hr

namespace Tables

theorem put_frameDataLayouts (t : Tables) (r : Record) :
    (t.put r).frameDataLayouts =
      (r.layoutOfKind? .frameData).elim t.frameDataLayouts t.frameDataLayouts.offer := by
  cases r with
  | layout base size value => cases hkind : value.kind <;> simp [put, Record.layoutOfKind?, hkind]
  | publicSymbol address symbol =>
    simp only [put, addPublicSymbol]
    split <;> rfl
  | _ => rfl

theorem put_fpoLayouts (t : Tables) (r : Record) :
    (t.put r).fpoLayouts = (r.layoutOfKind? .fpo).elim t.fpoLayouts t.fpoLayouts.offer := by
  cases r with
  | layout base size value => cases hkind : value.kind <;> simp [put, Record.layoutOfKind?, hkind]
  | publicSymbol address symbol =>
    simp only [put, addPublicSymbol]
    split <;> rfl
  | _ => rfl

end Tables

section Accepted

variable (text : List Char) (h : ((∅ : Tables).loadText text).error = none)

include h

theorem find?_frameDataLayouts_of_accepted (offset : UInt64) :
    ((∅ : Tables).loadText text).tables.frameDataLayouts.find? offset =
      (keptFrameData text).find? (·.covers offset) := by
  rw [find?_of_accepted text h Tables.frameDataLayouts (Record.layoutOfKind? .frameData) rfl
    (fun _ _ => rfl) Tables.put_frameDataLayouts]
  simp only [keptFrameData, recordsOf, layoutsOf, List.filterMap_filterMap, recordOfLine?_frameData]

theorem find?_fpoLayouts_of_accepted (offset : UInt64) :
    ((∅ : Tables).loadText text).tables.fpoLayouts.find? offset =
      (keptFpo text).find? (·.covers offset) := by
  rw [find?_of_accepted text h Tables.fpoLayouts (Record.layoutOfKind? .fpo) rfl (fun _ _ => rfl)
    Tables.put_fpoLayouts]
  simp only [keptFpo, recordsOf, layoutsOf, List.filterMap_filterMap, recordOfLine?_fpo]

end Accepted

namespace SymbolRecord

def name : SymbolRecord → String
  | function block => block.head.name
  | publicSymbol _ symbol => symbol.name

def base : SymbolRecord → UInt64
  | function block => block.head.base
  | publicSymbol address _ => address

def parameterSize : SymbolRecord → UInt32
  | function block => block.head.parameterSize
  | publicSymbol _ symbol => symbol.parameterSize

/-- The record in the file. -/
def record : SymbolRecord → Record
  | function block => .function block.head
  | publicSymbol address symbol => .publicSymbol address symbol

end SymbolRecord

theorem function_mem_of_mem_functionBlocks (rs : List Record) (b : FunctionBlock)
    (h : b ∈ functionBlocks rs) : Record.function b.head ∈ rs := by
  induction rs with
  | nil => cases h
  | cons r rs ih =>
    cases r with
    | function head =>
      rcases List.mem_cons.mp h with rfl | h
      · exact List.mem_cons_self
      · exact List.mem_cons_of_mem _ (ih h)
    | _ => exact List.mem_cons_of_mem _ (ih h)

/-- The record that names the code at an offset is a record of the file. -/
theorem record_mem_of_symbolRecord? (rs : List Record) (offset : UInt64) (s : SymbolRecord)
    (h : symbolRecord? rs offset = some s) : s.record ∈ rs := by
  unfold symbolRecord? at h
  split at h
  · rename_i f hf
    cases h
    obtain ⟨b, hb, rfl⟩ := List.mem_map.mp
      (Range.mem_of_mem_keep _ f (List.mem_of_find?_eq_some hf))
    exact function_mem_of_mem_functionBlocks rs b hb
  · obtain ⟨p, -, h⟩ := Option.bind_eq_some_iff.mp h
    split at h
    · cases h
    · obtain ⟨symbol, hsymbol, rfl⟩ := Option.map_eq_some_iff.mp h
      obtain ⟨r, hr, hp⟩ := List.exists_of_findSome?_eq_some hsymbol
      cases r with
      | publicSymbol a other =>
        have hsame : a = p ∧ other = symbol := by simpa [Record.publicAt?] using hp
        obtain ⟨rfl, rfl⟩ := hsame
        exact hr
      | _ => cases hp

/-- Stack records have no part in which record names the code at an offset. -/
theorem symbolRecord?_filter (rs : List Record) (offset : UInt64) :
    symbolRecord? (rs.filter (·.kind ≠ .stack)) offset = symbolRecord? rs offset := by
  have hkept : keptFunctions (rs.filter (·.kind ≠ .stack)) = keptFunctions rs := by
    have hblocks := functionBlocks_filter (fun r => decide (r.kind ≠ .stack)) (fun _ => rfl)
      (fun _ _ _ => rfl) rs
    rw [keptFunctions, keptFunctions, hblocks]
  have haddresses : (rs.filter (·.kind ≠ .stack)).filterMap Record.publicAddress? =
      rs.filterMap Record.publicAddress? := by
    rw [List.filterMap_filter]
    congr 1
    funext r
    cases r <;> rfl
  have hnearest : nearestPublic? (rs.filter (·.kind ≠ .stack)) offset = nearestPublic? rs offset := by
    simp only [nearestPublic?, publicAddresses, haddresses]
  have hpublic (p : UInt64) : firstPublic? (rs.filter (·.kind ≠ .stack)) p = firstPublic? rs p := by
    unfold firstPublic?
    rw [← List.head?_filterMap, ← List.head?_filterMap, List.filterMap_filter]
    congr 2
    funext r
    cases r <;> rfl
  rw [symbolRecord?, symbolRecord?, hkept, hnearest]
  simp only [hpublic]

/-- A line with the fields of a layout record holds a stack record or none. -/
theorem kind_of_layoutFields? (line : List Char) (f : LayoutFields) (r : Record)
    (hf : layoutFields? line = some f) (hr : recordOfLine? line = some r) : r.kind = .stack := by
  obtain ⟨body, rfl, -⟩ :=
    (LayoutFields.writes_iff f line).mp ((layoutFields?_eq_some_iff line f).mp hf)
  obtain ⟨kind, hkind, hread⟩ := Option.bind_eq_some_iff.mp hr
  rw [kindOfLine?, Text.splitAt?_append_cons ' ' "STACK".toList _ (by decide)] at hkind
  cases hkind
  exact Record.kind_of_read? .stack _ r hread

/-- The stack records apart, the records on the lines that count are those of the file. -/
theorem filter_recordsOf_effectiveLines (text : List Char) :
    ((effectiveLines text).filterMap recordOfLine?).filter (·.kind ≠ .stack) =
      (recordsOf text).filter (·.kind ≠ .stack) := by
  rw [effectiveLines, recordsOf, List.filterMap_filter, List.filter_filterMap, List.filter_filterMap]
  congr 1
  funext line
  cases hfields : layoutFields? line with
  | none => simp
  | some f =>
    by_cases hidle : f.Idle
    · -- An idle record is left out on the left and filtered out on the right.
      cases hrecord : recordOfLine? line with
      | none => simp
      | some r =>
        have hkind := kind_of_layoutFields? line f r hfields hrecord
        simp [hidle, hkind, Option.filter]
    · simp [hidle]

theorem filterMap_layouts_effectiveLines {β : Type} (pick? : LayoutFields → Option β)
    (hpick : ∀ f, f.Idle → pick? f = none) (text : List Char) :
    (layoutsOf text).filterMap pick? =
      ((effectiveLines text).filterMap layoutFields?).filterMap pick? := by
  rw [layoutsOf, effectiveLines, List.filterMap_filterMap, List.filterMap_filterMap,
    List.filterMap_filter]
  congr 1
  funext line
  cases hfields : layoutFields? line with
  | none => simp
  | some f =>
    by_cases hidle : f.Idle
    · simp [hidle, hpick f hidle]
    · simp [hidle]

/-- The layout at an offset, by the records of the file. -/
def layoutOf (text : List Char) (offset : UInt64) : Option FrameLayout :=
  match ((keptFrameData text).find? (·.covers offset)).or
      ((keptFpo text).find? (·.covers offset)) with
  | some r => some r.value
  | none => (symbolRecord? (recordsOf text) offset).map fun s => .ofParameterSize s.parameterSize

theorem layoutAt?_of_accepted (text : List Char) (h : ((∅ : Tables).loadText text).error = none)
    (offset : UInt64) :
    ((∅ : Tables).loadText text).tables.layoutAt? offset = layoutOf text offset := by
  have hsize : (((∅ : Tables).loadText text).tables.symbol? offset).map
      (fun s => FrameLayout.ofParameterSize s.parameterSize) =
        (symbolRecord? (recordsOf text) offset).map fun s => .ofParameterSize s.parameterSize := by
    rw [(hold_of_accepted text h).symbol?_eq, Option.map_map]
    congr 1
    funext s
    cases s <;> rfl
  unfold Tables.layoutAt? layoutOf
  rw [find?_frameDataLayouts_of_accepted text h, find?_fpoLayouts_of_accepted text h]
  cases ((keptFrameData text).find? (·.covers offset)).or
      ((keptFpo text).find? (·.covers offset)) with
  | some r => rfl
  | none => exact hsize

section LayoutOf

variable (text : List Char) (offset : UInt64)

theorem layoutOf_frameData (r : Range FrameLayout) (hr : r ∈ keptFrameData text)
    (hcovers : r.covers offset = true) : layoutOf text offset = some r.value := by
  have hfind : (keptFrameData text).find? (·.covers offset) = some r :=
    (Range.find?_keep_eq_some_iff _ offset r).mpr ⟨hr, hcovers⟩
  rw [layoutOf, hfind]
  rfl

theorem layoutOf_fpo (hframeData : ∀ r ∈ keptFrameData text, r.covers offset = false)
    (r : Range FrameLayout) (hr : r ∈ keptFpo text) (hcovers : r.covers offset = true) :
    layoutOf text offset = some r.value := by
  have hnone : (keptFrameData text).find? (·.covers offset) = none := by
    simpa [List.find?_eq_none] using hframeData
  have hfind : (keptFpo text).find? (·.covers offset) = some r :=
    (Range.find?_keep_eq_some_iff _ offset r).mpr ⟨hr, hcovers⟩
  rw [layoutOf, hnone, hfind]
  rfl

theorem layoutOf_neither (hframeData : ∀ r ∈ keptFrameData text, r.covers offset = false)
    (hfpo : ∀ r ∈ keptFpo text, r.covers offset = false) :
    layoutOf text offset =
      (symbolRecord? (recordsOf text) offset).map fun s => .ofParameterSize s.parameterSize := by
  have hnone : (keptFrameData text).find? (·.covers offset) = none := by
    simpa [List.find?_eq_none] using hframeData
  have hnone' : (keptFpo text).find? (·.covers offset) = none := by
    simpa [List.find?_eq_none] using hfpo
  rw [layoutOf, hnone, hnone']
  rfl

theorem layoutOf_eq_none_iff :
    layoutOf text offset = none ↔ (∀ r ∈ keptFrameData text, r.covers offset = false) ∧
      (∀ r ∈ keptFpo text, r.covers offset = false) ∧
        symbolRecord? (recordsOf text) offset = none := by
  constructor
  · intro hnone
    have hframeData : ∀ r ∈ keptFrameData text, r.covers offset = false := by
      intro r hr
      rw [← Bool.not_eq_true]
      intro hcovers
      rw [layoutOf_frameData text offset r hr hcovers] at hnone
      cases hnone
    have hfpo : ∀ r ∈ keptFpo text, r.covers offset = false := by
      intro r hr
      rw [← Bool.not_eq_true]
      intro hcovers
      rw [layoutOf_fpo text offset hframeData r hr hcovers] at hnone
      cases hnone
    rw [layoutOf_neither text offset hframeData hfpo] at hnone
    exact ⟨hframeData, hfpo, Option.map_eq_none_iff.mp hnone⟩
  · rintro ⟨hframeData, hfpo, hsymbol⟩
    rw [layoutOf_neither text offset hframeData hfpo, hsymbol]
    rfl

end LayoutOf

/-- Files with the same lines, idle layout records apart, give the same layouts. -/
theorem layoutOf_eq_of_effectiveLines (text other : List Char)
    (h : effectiveLines other = effectiveLines text) (offset : UInt64) :
    layoutOf other offset = layoutOf text offset := by
  have hframeData (f : LayoutFields) (hidle : f.Idle) : f.frameData? = none := if_neg hidle.1
  have hfpo (f : LayoutFields) (hidle : f.Idle) : f.fpo? = none := if_neg hidle.2
  unfold layoutOf keptFrameData keptFpo
  simp only [filterMap_layouts_effectiveLines _ hframeData, filterMap_layouts_effectiveLines _ hfpo, h]
  rw [← symbolRecord?_filter (recordsOf other), ← symbolRecord?_filter (recordsOf text),
    ← filter_recordsOf_effectiveLines, ← filter_recordsOf_effectiveLines, h]

/-- A frame that had no symbol gets the name and the base of the record for its offset. -/
theorem symbol_resolved (rs : List Record) (base : Address) (offset : UInt64) (frame : StackFrame)
    (hname : frame.functionName = none) (hbase : frame.functionBase = none) :
    (resolved rs base offset frame).functionName =
        (symbolRecord? rs offset).map (fun s => .ofRaw s.name) ∧
      (resolved rs base offset frame).functionBase =
        (symbolRecord? rs offset).map fun s => base.add s.base := by
  unfold resolved
  cases hs : symbolRecord? rs offset with
  | none => exact ⟨hname, hbase⟩
  | some s =>
    cases s with
    | publicSymbol address symbol => exact ⟨rfl, rfl⟩
    | function block =>
      -- A source line leaves the symbol as it is.
      dsimp only
      cases block.lineAt? offset <;> exact ⟨rfl, rfl⟩

/-- The layout that a fresh module finds for a frame once it has accepted a symbol file, next to the
symbol that it attaches to a fresh frame at the same place. -/
theorem layout_loaded_eq_kept_or_symbol (name : String) (data : SymbolBuffer)
    (hload : (TextModule.backend.parse (TextModule.backend.create name) data).error = none)
    (m : CodeModule) (frame : StackFrame) (offset : UInt64) (hmodule : frame.codeModule = some m)
    (hoffset : frame.instruction.offsetFrom? m.base = some offset) :
    let text := Utf8.decodeLossy data.text
    let loaded := (TextModule.backend.parse (TextModule.backend.create name) data).loaded
    let answer := TextModule.backend.layout loaded frame
    let found := TextModule.backend.lookUp loaded
      { instruction := frame.instruction, codeModule := some m, trust := frame.trust }
    let symbol := symbolRecord? (recordsOf text) offset
    (∀ r ∈ keptFrameData text, r.covers offset = true → answer = some r.value) ∧
    ((∀ r ∈ keptFrameData text, r.covers offset = false) →
      ∀ r ∈ keptFpo text, r.covers offset = true → answer = some r.value) ∧
    ((∀ r ∈ keptFrameData text, r.covers offset = false) →
      (∀ r ∈ keptFpo text, r.covers offset = false) →
        answer = symbol.map fun s => .ofParameterSize s.parameterSize) ∧
    (∀ s, symbol = some s → s.record ∈ recordsOf text) ∧
    (found.functionName = symbol.map fun s => .ofRaw s.name) ∧
    (found.functionBase = symbol.map fun s => m.base.add s.base) ∧
    (answer = none ↔ (∀ r ∈ keptFrameData text, r.covers offset = false) ∧
      (∀ r ∈ keptFpo text, r.covers offset = false) ∧ found.functionName = none) ∧
    ∀ other : SymbolBuffer,
      (TextModule.backend.parse (TextModule.backend.create name) other).error = none →
      effectiveLines (Utf8.decodeLossy other.text) = effectiveLines text →
        TextModule.backend.layout
          (TextModule.backend.parse (TextModule.backend.create name) other).loaded frame = answer := by
  intro text loaded answer found symbol
  have hframe : frame.moduleOffset? = some offset := by
    rw [StackFrame.moduleOffset?, hmodule]
    exact hoffset
  have hlayout (other : SymbolBuffer)
      (hother : (TextModule.backend.parse (TextModule.backend.create name) other).error = none) :
      TextModule.backend.layout (TextModule.backend.parse (TextModule.backend.create name) other).loaded
        frame = layoutOf (Utf8.decodeLossy other.text) offset := by
    have haccepted : ((∅ : Tables).loadText (Utf8.decodeLossy other.text)).error = none :=
      Option.map_eq_none_iff.mp hother
    have htables (t : Tables) : t.layout? frame = t.layoutAt? offset := by
      rw [Tables.layout?, hframe, Option.bind_some]
    exact (htables _).trans (layoutAt?_of_accepted _ haccepted offset)
  -- The tables are gone from here on: the answer and the symbol are both read off the records.
  have hanswer : answer = layoutOf text offset := hlayout data hload
  have haccepted : ((∅ : Tables).loadText text).error = none := Option.map_eq_none_iff.mp hload
  have hfound : found = resolved (recordsOf text) m.base offset
      { instruction := frame.instruction, codeModule := some m, trust := frame.trust } :=
    (hold_of_accepted text haccepted).lookUp_eq_resolved m frame.instruction frame.trust offset hoffset
  obtain ⟨hname, hbase⟩ : found.functionName = symbol.map (fun s => .ofRaw s.name) ∧
      found.functionBase = symbol.map fun s => m.base.add s.base := by
    rw [hfound]
    exact symbol_resolved _ _ _ _ rfl rfl
  refine ⟨?_, ?_, ?_, ?_, hname, hbase, ?_, ?_⟩
  · intro r hr hcovers
    exact hanswer.trans (layoutOf_frameData text offset r hr hcovers)
  · intro hframeData r hr hcovers
    exact hanswer.trans (layoutOf_fpo text offset hframeData r hr hcovers)
  · intro hframeData hfpo
    exact hanswer.trans (layoutOf_neither text offset hframeData hfpo)
  · intro s hs
    exact record_mem_of_symbolRecord? _ offset s hs
  · rw [hanswer, layoutOf_eq_none_iff, hname, Option.map_eq_none_iff]
  · intro other hother hlines
    rw [hlayout other hother, hanswer]
    exact layoutOf_eq_of_effectiveLines text _ hlines offset

/-- A file in which a layout without a program comes first, a layout with one overlaps it, and a third
record is idle. -/
def overlappingLayoutsFile : SymbolBuffer where
  content := ["STACK WIN 0 10 8 1 2 3 4 5 6 0 1", "STACK WIN 4 14 8 a b c d e f 1 $eip",
    "STACK WIN 1 14 4 0 0 0 0 0 0 0 0"].flatMap fun line => (SymbolBuffer.ofText (line ++ "\n")).content

/-- The same file without the idle record. -/
def shorterLayoutsFile : SymbolBuffer where
  content := ["STACK WIN 0 10 8 1 2 3 4 5 6 0 1", "STACK WIN 4 14 8 a b c d e f 1 $eip"].flatMap
    fun line => (SymbolBuffer.ofText (line ++ "\n")).content

theorem layout_overlappingLayoutsFile :
    let m : CodeModule := ⟨"m", ⟨0x4000⟩, 0x100, none, none, none⟩
    let frame : StackFrame := { instruction := ⟨0x4014⟩, codeModule := some m }
    let parsed := TextModule.backend.parse (TextModule.backend.create "m") overlappingLayoutsFile
    let shorter := TextModule.backend.parse (TextModule.backend.create "m") shorterLayoutsFile
    parsed.error = none ∧ shorter.error = none ∧ frame.codeModule = some m ∧
    frame.instruction.offsetFrom? m.base = some 0x14 ∧
    TextModule.backend.layout parsed.loaded frame =
      some ⟨.frameData, .all, 0xa, 0xb, 0xc, 0xd, 0xe, 0xf, false, some "$eip"⟩ ∧
    TextModule.backend.layout shorter.loaded frame = TextModule.backend.layout parsed.loaded frame := by
  intro m frame parsed shorter
  have hload : parsed.error = none := by decide +kernel
  have hshorter : shorter.error = none := by decide +kernel
  have hoffset : frame.instruction.offsetFrom? m.base = some 0x14 := by decide
  have hkept : ⟨0x14, 8, ⟨.frameData, .all, 0xa, 0xb, 0xc, 0xd, 0xe, 0xf, false, some "$eip"⟩⟩ ∈
      keptFrameData (Utf8.decodeLossy overlappingLayoutsFile.text) := by decide +kernel
  have hlines : effectiveLines (Utf8.decodeLossy shorterLayoutsFile.text) =
      effectiveLines (Utf8.decodeLossy overlappingLayoutsFile.text) := by decide +kernel
  obtain ⟨hframeData, -, -, -, -, -, -, hother⟩ :=
    layout_loaded_eq_kept_or_symbol "m" overlappingLayoutsFile hload m frame 0x14 rfl hoffset
  exact ⟨hload, hshorter, rfl, hoffset, hframeData _ hkept (by decide),
    hother shorterLayoutsFile hshorter hlines⟩

end Symbolication.SymbolFile
