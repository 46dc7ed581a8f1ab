import Symbolication.Proofs.Resolver.HandOver

/-!
Runs of a resolver that parses symbol files and keeps no buffers. Whatever is asked of it, and in
whatever order, it acts as a partial map from code files to symbol data: the data of a code file is
what it was last loaded with, and every answer about a frame is that of a module made for this data
alone.
-/

namespace Symbolication

/-- What can be asked of a resolver. -/
inductive Request where
  | loadFile (read : String → Reading) (m : CodeModule) (path : String)
  | loadBuffer (m : CodeModule) (bytes : List UInt8)
  | unload (m : CodeModule)
  | has (m : CodeModule)
  | count
  | codeFiles
  | fill (frame : StackFrame)
  | layout (frame : StackFrame)
  | rules (frame : StackFrame)

inductive Answer where
  | loaded (result : Except ResolverError Unit)
  | unloaded
  | has (registered : Bool)
  | count (modules : Nat)
  | codeFiles (names : List String)
  | filled (frame : StackFrame)
  | layout (found : Option FrameLayout)
  | rules (found : Option Cfi.RecoveryRules)

namespace Resolver

variable {μ σ : Type}

/-- The resolver after a request, and its answer. -/
def perform (r : Resolver μ σ) : Request → Resolver μ σ × Answer
  | .loadFile read m path =>
    let o := r.loadFile read m path
    (o.resolver, .loaded o.result)
  | .loadBuffer m bytes =>
    let o := r.loadBuffer m bytes
    (o.resolver, .loaded o.result)
  | .unload m => ((r.unload m).resolver, .unloaded)
  | .has m => (r, .has (r.has m))
  | .count => (r, .count r.modules.size)
  | .codeFiles => (r, .codeFiles r.modules.keys)
  | .fill frame => (r, .filled (r.fill frame).value)
  | .layout frame => (r, .layout (r.layout frame).value)
  | .rules frame => (r, .rules (r.rules frame).value)

/-- The resolver after a run of requests. -/
def after (r : Resolver μ σ) (qs : List Request) : Resolver μ σ :=
  qs.foldl (fun r q => (r.perform q).1) r

/-- The requests of a run with their answers. -/
def history (r : Resolver μ σ) : List Request → List (Request × Answer)
  | [] => []
  | q :: qs => (q, (r.perform q).2) :: (r.perform q).1.history qs

/-- The resolver for symbol files, without modules and with hooks that keep nothing. -/
def basic : Resolver TextModule Unit where
  backend := TextModule.backend
  hooks := .discarding
  hookState := ()

end Resolver

/-- The data of a code file after one more request, by its answer. -/
def dataAfter (key : String) (data : Option SymbolBuffer) :
    Request × Answer → Option SymbolBuffer
  | (.loadFile read m path, .loaded (.ok ())) =>
    if m.codeFile = key then (read path).result.toOption else data
  | (.loadBuffer m bytes, .loaded (.ok ())) => if m.codeFile = key then some ⟨bytes⟩ else data
  | (.unload m, _) => if m.codeFile = key then none else data
  | _ => data

/-- The data of the last successful load of a code file since it was last unloaded. -/
def lastData? (history : List (Request × Answer)) (key : String) : Option SymbolBuffer :=
  history.foldl (dataAfter key) none

namespace Backend

variable {μ : Type} (b : Backend μ)

/-- A module of its own for the data. -/
def standalone (codeFile : String) (data : SymbolBuffer) : μ :=
  (b.parse (b.create codeFile) data).loaded

def Accepts (codeFile : String) (data : SymbolBuffer) : Prop :=
  (b.parse (b.create codeFile) data).error = none

/-- The module that answers for a frame if the code files have the data given. -/
def standaloneFor? (data? : String → Option SymbolBuffer) (frame : StackFrame) : Option μ :=
  frame.codeModule.bind fun m => (data? m.codeFile).map (b.standalone m.codeFile)

end Backend

namespace Resolver

/-- A resolver acts as the map `data?` from code files to symbol data. -/
structure ActsAs {μ σ : Type} (r : Resolver μ σ) (b : Backend μ)
    (data? : String → Option SymbolBuffer) : Prop where
  loadBuffer_ok : ∀ m bytes, (r.perform (.loadBuffer m bytes)).2 = .loaded (.ok ()) ↔
    data? m.codeFile = none ∧ b.Accepts m.codeFile ⟨bytes⟩
  loadFile_ok : ∀ read m path, (r.perform (.loadFile read m path)).2 = .loaded (.ok ()) ↔
    data? m.codeFile = none ∧
      ∃ buffer, (read path).result = .ok buffer ∧ b.Accepts m.codeFile buffer
  /-- A failed load makes no difference to whatever follows. -/
  load_error : ∀ q e, (r.perform q).2 = .loaded (.error e) →
    ∀ later, (r.perform q).1.history later = r.history later
  has : ∀ m, (r.perform (.has m)).2 = .has (data? m.codeFile).isSome
  codeFiles : ∃ names, (r.perform .codeFiles).2 = .codeFiles names ∧
    (r.perform .count).2 = .count names.length ∧ names.Nodup ∧
      ∀ key, key ∈ names ↔ (data? key).isSome
  fill : ∀ frame, (r.perform (.fill frame)).2 =
    .filled (match b.standaloneFor? data? frame with
      | some loaded => b.lookUp loaded frame
      | none => frame)
  layout : ∀ frame, (r.perform (.layout frame)).2 =
    .layout ((b.standaloneFor? data? frame).bind fun loaded => b.layout loaded frame)
  rules : ∀ frame, (r.perform (.rules frame)).2 =
    .rules ((b.standaloneFor? data? frame).bind fun loaded => (b.rules loaded frame).value)

/-- The invariant of a run: under each code file stands the module for its data. -/
structure Holds {μ : Type} (r : Resolver μ Unit) (b : Backend μ)
    (data? : String → Option SymbolBuffer) : Prop where
  backend : r.backend = b
  hooks : r.hooks = .discarding
  modules : ∀ key, r.modules.get? key = (data? key).map (b.standalone key)

variable {μ : Type} (b : Backend μ) (data? : String → Option SymbolBuffer) (r : Resolver μ Unit)

theorem eq_of_parts (s : Resolver μ Unit) (hbackend : s.backend = r.backend)
    (hhooks : s.hooks = r.hooks) (hmodules : s.modules = r.modules) : s = r := by
  cases r
  cases s
  cases hbackend
  cases hhooks
  cases hmodules
  rfl

namespace Holds

variable {b data? r} (h : r.Holds b data?)

include h

theorem has_eq (m : CodeModule) : r.has m = (data? m.codeFile).isSome := by
  unfold has
  rw [OrderedMap.contains_eq, h.modules, Option.isSome_map]

theorem has_eq_false_iff (m : CodeModule) : r.has m = false ↔ data? m.codeFile = none := by
  rw [h.has_eq, Option.isSome_eq_false_iff, Option.isNone_iff_eq_none]

theorem parsedAnew_contentOf (m : CodeModule) (buffer : SymbolBuffer) :
    r.parsedAnew m (r.contentOf m buffer) = b.parse (b.create m.codeFile) buffer := by
  unfold parsedAnew contentOf
  rw [h.backend, h.hooks]
  rfl

theorem ok_iff (m : CodeModule) (buffer : SymbolBuffer)
    (o : Outcome μ Unit (Except ResolverError Unit)) (ho : r.HandsOver m buffer o) :
    o.result = .ok () ↔ data? m.codeFile = none ∧ b.Accepts m.codeFile buffer := by
  rw [ho.ok_iff_accepted, h.has_eq_false_iff, h.parsedAnew_contentOf]
  rfl

theorem of_ok (m : CodeModule) (buffer : SymbolBuffer)
    (o : Outcome μ Unit (Except ResolverError Unit)) (ho : r.HandsOver m buffer o)
    (hok : o.result = .ok ()) :
    o.resolver.Holds b fun key => if m.codeFile = key then some buffer else data? key := by
  refine ⟨ho.backend.trans h.backend, ho.hooks.trans h.hooks, ?_⟩
  intro key
  rw [ho.modules_of_ok hok, OrderedMap.get?_insert, h.parsedAnew_contentOf]
  by_cases hkey : m.codeFile = key
  · subst hkey
    rw [if_pos rfl, if_pos rfl]
    rfl
  · rw [if_neg hkey, if_neg fun heq => hkey heq.symm]
    exact h.modules key

omit h in
theorem of_error (m : CodeModule) (buffer : SymbolBuffer) (e : ResolverError)
    (o : Outcome μ Unit (Except ResolverError Unit)) (ho : r.HandsOver m buffer o)
    (herror : o.result = .error e) : o.resolver = r :=
  r.eq_of_parts o.resolver ho.backend ho.hooks (ho.modules_of_error e herror)

theorem unload (m : CodeModule) :
    (r.unload m).resolver.Holds b fun key => if m.codeFile = key then none else data? key := by
  refine ⟨h.backend, h.hooks, ?_⟩
  intro key
  show (r.modules.erase m.codeFile).get? key = _
  rw [OrderedMap.get?_erase]
  by_cases hkey : m.codeFile = key
  · rw [if_pos hkey.symm, if_pos hkey]
    rfl
  · rw [if_neg hkey, if_neg fun heq => hkey heq.symm]
    exact h.modules key

end Holds

/-- A load that fails leaves the resolver as it was. -/
theorem perform_of_error (q : Request) (e : ResolverError)
    (h : (r.perform q).2 = .loaded (.error e)) : (r.perform q).1 = r := by
  cases q with
  | loadFile read m path =>
    injection h with herror
    obtain hfound | hearly := r.loadFile_cases m read path
    · obtain ⟨buffer, -, -, hfound⟩ := hfound
      exact Holds.of_error m buffer e _ hfound herror
    · exact hearly.2.resolver
  | loadBuffer m bytes =>
    injection h with herror
    exact Holds.of_error m ⟨bytes⟩ e _ (r.handsOver_handOver m ⟨bytes⟩) herror
  | unload m => cases h
  | has m | count | codeFiles | fill frame | layout frame | rules frame => cases h

theorem Holds.perform (h : r.Holds b data?) (q : Request) :
    (r.perform q).1.Holds b fun key => dataAfter key (data? key) (q, (r.perform q).2) := by
  -- Only a load that succeeds and an unload change anything, and the answer tells which loads do.
  cases q with
  | loadFile read m path =>
    obtain hfound | hearly := r.loadFile_cases m read path
    · obtain ⟨buffer, -, hread, hfound⟩ := hfound
      show (r.loadFile read m path).resolver.Holds b fun key =>
        dataAfter key (data? key) (.loadFile read m path, .loaded (r.loadFile read m path).result)
      cases hr : (r.loadFile read m path).result with
      | ok u =>
        have hafter := h.of_ok m buffer _ hfound hr
        have hbuffer : (read path).result.toOption = some buffer := by
          rw [hread]
          rfl
        simp only [dataAfter, hbuffer]
        exact hafter
      | error e =>
        rw [Holds.of_error m buffer e _ hfound hr]
        exact h
    · obtain ⟨e, he⟩ := hearly.2.result
      show (r.loadFile read m path).resolver.Holds b fun key =>
        dataAfter key (data? key) (.loadFile read m path, .loaded (r.loadFile read m path).result)
      rw [he, hearly.2.resolver]
      exact h
  | loadBuffer m bytes =>
    have hfound := r.handsOver_handOver m ⟨bytes⟩
    show (r.handOver m ⟨bytes⟩).resolver.Holds b fun key =>
      dataAfter key (data? key) (.loadBuffer m bytes, .loaded (r.handOver m ⟨bytes⟩).result)
    cases hr : (r.handOver m ⟨bytes⟩).result with
    | ok u => exact h.of_ok m ⟨bytes⟩ _ hfound hr
    | error e =>
      rw [Holds.of_error m ⟨bytes⟩ e _ hfound hr]
      exact h
  | unload m => exact h.unload m
  | has m | count | codeFiles | fill frame | layout frame | rules frame => exact h

theorem Holds.after (h : r.Holds b data?) (qs : List Request) :
    (r.after qs).Holds b fun key => (r.history qs).foldl (dataAfter key) (data? key) := by
  -- The induction is on the run, from any resolver that the invariant holds of.
  induction qs generalizing r data? with
  | nil => exact h
  | cons q qs ih => exact ih _ _ (h.perform b data? r q)

theorem moduleFor_value (frame : StackFrame) :
    (r.moduleFor frame).value =
      frame.codeModule.bind fun m => r.modules.get? m.codeFile := by
  unfold moduleFor
  cases frame.codeModule with
  | none => rfl
  | some m =>
    dsimp only [Option.bind_some]
    cases r.modules.get? m.codeFile <;> rfl

theorem Holds.moduleFor_value (h : r.Holds b data?) (frame : StackFrame) :
    (r.moduleFor frame).value = b.standaloneFor? data? frame := by
  rw [Resolver.moduleFor_value]
  simp only [h.modules]
  rfl

theorem fill_value (frame : StackFrame) :
    (r.fill frame).value = match (r.moduleFor frame).value with
      | some loaded => r.backend.lookUp loaded frame
      | none => frame := by
  unfold fill
  cases r.moduleFor frame with
  | mk found log => cases found <;> rfl

theorem layout_value (frame : StackFrame) :
    (r.layout frame).value =
      (r.moduleFor frame).value.bind fun loaded => r.backend.layout loaded frame := by
  unfold layout
  cases r.moduleFor frame with
  | mk found log => cases found <;> rfl

theorem rules_value (frame : StackFrame) :
    (r.rules frame).value =
      (r.moduleFor frame).value.bind fun loaded => (r.backend.rules loaded frame).value := by
  unfold rules
  cases r.moduleFor frame with
  | mk found log => cases found <;> rfl

theorem Holds.loadFile_ok_iff (h : r.Holds b data?) (read : String → Reading) (m : CodeModule)
    (path : String) :
    (r.loadFile read m path).result = .ok () ↔
      data? m.codeFile = none ∧
        ∃ buffer, (read path).result = .ok buffer ∧ b.Accepts m.codeFile buffer := by
  obtain hfound | hearly := r.loadFile_cases m read path
  · obtain ⟨buffer, -, hread, hfound⟩ := hfound
    rw [h.ok_iff m buffer _ hfound]
    constructor
    · intro hok
      exact ⟨hok.1, buffer, hread, hok.2⟩
    · intro hok
      obtain ⟨hfree, found, hfound, haccepts⟩ := hok
      rw [hread] at hfound
      cases hfound
      exact ⟨hfree, haccepts⟩
  · obtain ⟨hwhy, hearly⟩ := hearly
    obtain ⟨e, he⟩ := hearly.result
    rw [he]
    constructor
    · intro hok
      cases hok
    · intro hok
      obtain ⟨hfree, buffer, hread, -⟩ := hok
      -- The code file is free and there was something to read, so the load did not end early.
      obtain hhas | hunreadable := hwhy
      · rw [(h.has_eq_false_iff m).mpr hfree] at hhas
        cases hhas
      · obtain ⟨err, hunreadable⟩ := hunreadable
        rw [hread] at hunreadable
        cases hunreadable

theorem Holds.mem_keys_iff (h : r.Holds b data?) (key : String) :
    key ∈ r.modules.keys ↔ (data? key).isSome := by
  rw [OrderedMap.mem_keys_iff, OrderedMap.contains_eq, h.modules, Option.isSome_map]

theorem Holds.actsAs (h : r.Holds b data?) : r.ActsAs b data? where
  loadBuffer_ok m bytes := by
    have hok := h.ok_iff m ⟨bytes⟩ _ (r.handsOver_handOver m ⟨bytes⟩)
    rw [← hok]
    exact Answer.loaded.injEq _ _ ▸ Iff.rfl
  loadFile_ok read m path := by
    rw [← h.loadFile_ok_iff]
    exact Answer.loaded.injEq _ _ ▸ Iff.rfl
  load_error q e herror later := by
    rw [r.perform_of_error q e herror]
  has m := congrArg Answer.has (h.has_eq m)
  codeFiles := by
    refine ⟨r.modules.keys, rfl, ?_, r.modules.nodup_keys, h.mem_keys_iff b data? r⟩
    show Answer.count r.modules.entries.length = .count (r.modules.entries.map Prod.fst).length
    rw [List.length_map]
  fill frame := by
    show Answer.filled (r.fill frame).value = _
    rw [fill_value, h.moduleFor_value, h.backend]
  layout frame := by
    show Answer.layout (r.layout frame).value = _
    rw [layout_value, h.moduleFor_value, h.backend]
  rules frame := by
    show Answer.rules (r.rules frame).value = _
    rw [rules_value, h.moduleFor_value, h.backend]

theorem holds_basic : basic.Holds TextModule.backend fun _ => none :=
  ⟨rfl, rfl, fun _ => rfl⟩

/-- After any run of requests the resolver acts as the map from each code file to the data of its last
successful load since its last unload; one more unload takes its own code file out of that map. -/
theorem basic_acts_as_map (before : List Request) :
    (basic.after before).ActsAs TextModule.backend (lastData? (basic.history before)) ∧
      ∀ m, ((basic.after before).perform (.unload m)).1.ActsAs TextModule.backend fun key =>
        if m.codeFile = key then none else lastData? (basic.history before) key := by
  have h : (basic.after before).Holds TextModule.backend (lastData? (basic.history before)) :=
    holds_basic.after _ _ _ before
  refine ⟨h.actsAs, ?_⟩
  intro m
  exact (h.unload m).actsAs

end Resolver

end Symbolication
