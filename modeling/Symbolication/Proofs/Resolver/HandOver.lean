import Symbolication.OrderedMap.Lemmas
import Symbolication.Resolver.Basic

/-!
Loads as the hooks see them. A load that has got a buffer gives it to the hooks before anything is done
with it, and for good when it is over, whichever way it ends. A load that ends before there is a buffer
calls no hook and changes nothing.
-/

namespace Symbolication.Resolver

variable {μ σ : Type} (r : Resolver μ σ) (m : CodeModule)

/-- What the hooks leave of a buffer before it is parsed. -/
def contentOf (buffer : SymbolBuffer) : SymbolBuffer := (r.hooks.store r.hookState m buffer).2

/-- A new module of the code file after it has read the content. -/
def parsedAnew (content : SymbolBuffer) : Parsed μ :=
  r.backend.parse (r.backend.create m.codeFile) content

/-- What happens to modules between the hooks. -/
def ingestEvents (content : SymbolBuffer) (registered : Bool) : List Event :=
  if r.has m then []
  else [.created m.codeFile, .parsed m.codeFile content] ++
    if registered then [] else [.dropped m.codeFile]

theorem ingest_of_has (content : SymbolBuffer) (h : r.has m = true) :
    r.ingest m content = ⟨r, .error (.alreadyLoaded m.codeFile), .ofLog (refuseLoaded m)⟩ := by
  unfold ingest
  rw [if_pos h]

theorem ingest_of_rejected (content : SymbolBuffer) (e : ParseError) (h : r.has m = false)
    (he : (r.parsedAnew m content).error = some e) :
    ∃ log, r.ingest m content =
      ⟨r, .error (.parse m.codeFile e),
        ⟨[.created m.codeFile, .parsed m.codeFile content, .dropped m.codeFile], log⟩⟩ := by
  unfold parsedAnew at he
  simp only [ingest, h, he]
  exact ⟨_, rfl⟩

theorem ingest_of_accepted (content : SymbolBuffer) (h : r.has m = false)
    (he : (r.parsedAnew m content).error = none) :
    ∃ log, r.ingest m content =
      ⟨{ r with modules := r.modules.insert m.codeFile (r.parsedAnew m content).loaded }, .ok (),
        ⟨[.created m.codeFile, .parsed m.codeFile content], log⟩⟩ := by
  -- The table takes the module, since the code file was found to be free.
  have hadd : ModuleTable.add? r.modules m.codeFile (r.parsedAnew m content).loaded =
      some (r.modules.insert m.codeFile (r.parsedAnew m content).loaded) := by
    unfold has at h
    simp only [ModuleTable.add?, h]
    rfl
  unfold parsedAnew at he hadd ⊢
  simp only [ingest, h, he, hadd]
  exact ⟨_, rfl⟩

theorem contains_insert_self (t : ModuleTable μ) (key : String) (loaded : μ) :
    (t.insert key loaded).contains key = true := by
  rw [OrderedMap.contains_eq, OrderedMap.get?_insert, if_pos rfl]
  rfl

/-- An ingestion of `content`, on every way through. -/
structure Ingests (content : SymbolBuffer) (o : Outcome μ σ (Except ResolverError Unit)) : Prop where
  events : o.trace.events = r.ingestEvents m content o.result.isOk
  ok_iff : o.result = .ok () ↔ r.has m = false ∧ (r.parsedAnew m content).error = none
  resolver_of_ok : o.result = .ok () → o.resolver =
    { r with modules := r.modules.insert m.codeFile (r.parsedAnew m content).loaded }
  resolver_of_error : ∀ e, o.result = .error e → o.resolver = r

theorem ingests (content : SymbolBuffer) : r.Ingests m content (r.ingest m content) := by
  cases hhas : r.has m with
  | true =>
    rw [r.ingest_of_has m content hhas]
    refine ⟨?_, ?_, ?_, ?_⟩
    · rw [ingestEvents, if_pos hhas]
      rfl
    · simp [hhas]
    · intro h
      cases h
    · intro e h
      rfl
  | false =>
    cases herror : (r.parsedAnew m content).error with
    | some err =>
      obtain ⟨log, hingest⟩ := r.ingest_of_rejected m content err hhas herror
      rw [hingest]
      refine ⟨?_, ?_, ?_, ?_⟩
      · simp only [ingestEvents, hhas]
        rfl
      · simp [herror]
      · intro h
        cases h
      · intro e h
        rfl
    | none =>
      obtain ⟨log, hingest⟩ := r.ingest_of_accepted m content hhas herror
      rw [hingest]
      refine ⟨?_, ?_, ?_, ?_⟩
      · simp only [ingestEvents, hhas]
        rfl
      · simp [hhas, herror]
      · intro h
        rfl
      · intro e h
        cases h

/-- The resolver whose hooks have seen the buffer, and which has done nothing else. -/
def afterStore (buffer : SymbolBuffer) : Resolver μ σ :=
  { r with hookState := (r.hooks.store r.hookState m buffer).1 }

/-- A load that gives `buffer` to the hooks, on every way through. -/
structure HandsOver (buffer : SymbolBuffer) (o : Outcome μ σ (Except ResolverError Unit)) :
    Prop where
  /-- The hooks are called twice, at the very beginning and at the very end. -/
  events : o.trace.events =
    .stored m.codeFile buffer :: r.ingestEvents m (r.contentOf m buffer) o.result.isOk ++
      [.released m.codeFile (r.contentOf m buffer) o.result.isOk]
  hookState : o.resolver.hookState =
    (r.hooks.release (r.afterStore m buffer).hookState m (r.contentOf m buffer)
      o.result.isOk).value
  backend : o.resolver.backend = r.backend
  hooks : o.resolver.hooks = r.hooks
  ok_iff_registered : o.result = .ok () ↔ r.has m = false ∧ o.resolver.has m = true
  ok_iff_accepted : o.result = .ok () ↔
    r.has m = false ∧ (r.parsedAnew m (r.contentOf m buffer)).error = none
  modules_of_ok : o.result = .ok () → o.resolver.modules =
    r.modules.insert m.codeFile (r.parsedAnew m (r.contentOf m buffer)).loaded
  modules_of_error : ∀ e, o.result = .error e → o.resolver.modules = r.modules

theorem handsOver_handOver (buffer : SymbolBuffer) :
    r.HandsOver m buffer (r.handOver m buffer) := by
  let content := r.contentOf m buffer
  let stored := r.afterStore m buffer
  have hingests : stored.Ingests m content (stored.ingest m content) := stored.ingests m content
  -- Up to the state of the hooks, the resolver is the one that the ingestion leaves.
  have hmodules : (r.handOver m buffer).resolver.modules =
    (stored.ingest m content).resolver.modules := rfl
  have hresult : (r.handOver m buffer).result = (stored.ingest m content).result := rfl
  have hinner : (stored.ingest m content).resolver.hookState = stored.hookState ∧
      (stored.ingest m content).resolver.backend = r.backend ∧
        (stored.ingest m content).resolver.hooks = r.hooks := by
    cases hr : (stored.ingest m content).result with
    | ok u =>
      rw [hingests.resolver_of_ok hr]
      exact ⟨rfl, rfl, rfl⟩
    | error e =>
      rw [hingests.resolver_of_error e hr]
      exact ⟨rfl, rfl, rfl⟩
  refine ⟨?_, ?_, hinner.2.1, hinner.2.2, ?_, hingests.ok_iff, ?_, ?_⟩
  · show .stored m.codeFile buffer :: (stored.ingest m content).trace.events ++ _ = _
    rw [hingests.events]
    rfl
  · show (r.hooks.release (stored.ingest m content).resolver.hookState m content _).value = _
    rw [hinner.1]
    rfl
  · constructor
    · intro h
      refine ⟨(hingests.ok_iff.mp h).1, ?_⟩
      show (r.handOver m buffer).resolver.modules.contains m.codeFile = true
      rw [hmodules, hingests.resolver_of_ok h]
      exact contains_insert_self _ _ _
    · intro h
      cases hr : (stored.ingest m content).result with
      | ok u => exact hr
      | error e =>
        -- A failed ingestion leaves the code file as free as it was.
        have hafter : (r.handOver m buffer).resolver.has m = r.has m := by
          show (r.handOver m buffer).resolver.modules.contains m.codeFile = _
          rw [hmodules, hingests.resolver_of_error e hr]
          rfl
        rw [hafter, h.1] at h
        cases h.2
  · intro h
    rw [hmodules, hingests.resolver_of_ok h]
    rfl
  · intro e h
    rw [hmodules, hingests.resolver_of_error e h]
    rfl

/-- A load that ends before there is a buffer. -/
structure EndsEarly (o : Outcome μ σ (Except ResolverError Unit)) : Prop where
  events : o.trace.events = []
  resolver : o.resolver = r
  result : ∃ e, o.result = .error e

theorem not_endsEarly_of_handsOver (buffer : SymbolBuffer)
    (o : Outcome μ σ (Except ResolverError Unit)) (h : r.HandsOver m buffer o) :
    ¬ r.EndsEarly o := by
  intro hearly
  have hevents := h.events
  rw [hearly.events] at hevents
  cases hevents

theorem buffer_eq_of_handsOver (b c : SymbolBuffer) (o : Outcome μ σ (Except ResolverError Unit))
    (hb : r.HandsOver m b o) (hc : r.HandsOver m c o) : b = c := by
  have hevents := hb.events
  rw [hc.events] at hevents
  injection hevents with hhead
  injection hhead with _ hbuffer
  exact hbuffer.symm

variable (read : String → Reading) (path : String)

theorem endsEarly_loadFile_of_has (h : r.has m = true) :
    r.EndsEarly (r.loadFile read m path) := by
  unfold loadFile
  rw [if_pos h]
  exact ⟨rfl, rfl, _, rfl⟩

theorem endsEarly_loadFile_of_unreadable (h : r.has m = false) (e : FileError)
    (he : (read path).result = .error e) : r.EndsEarly (r.loadFile read m path) := by
  simp only [loadFile, h, he]
  exact ⟨rfl, rfl, _, rfl⟩

theorem handsOver_loadFile (h : r.has m = false) (buffer : SymbolBuffer)
    (hbuffer : (read path).result = .ok buffer) :
    r.HandsOver m buffer (r.loadFile read m path) := by
  -- The load from a file adds nothing but reports to the hand-over of what was read.
  have houter : ∃ log, r.loadFile read m path =
      { r.handOver m buffer with trace := .ofLog log ++ (r.handOver m buffer).trace } := by
    simp only [loadFile, h, hbuffer]
    exact ⟨_, rfl⟩
  obtain ⟨log, houter⟩ := houter
  have hinner := r.handsOver_handOver m buffer
  rw [houter]
  exact ⟨hinner.events, hinner.hookState, hinner.backend, hinner.hooks, hinner.ok_iff_registered,
    hinner.ok_iff_accepted, hinner.modules_of_ok, hinner.modules_of_error⟩

/-- A load from a file hands over what was read, or it ends early for lack of a buffer. -/
theorem loadFile_cases :
    (∃ buffer, r.has m = false ∧ (read path).result = .ok buffer ∧
      r.HandsOver m buffer (r.loadFile read m path)) ∨
    ((r.has m = true ∨ ∃ e, (read path).result = .error e) ∧
      r.EndsEarly (r.loadFile read m path)) := by
  cases hhas : r.has m with
  | true => exact .inr ⟨.inl rfl, r.endsEarly_loadFile_of_has m read path hhas⟩
  | false =>
    cases hread : (read path).result with
    | error e =>
      exact .inr ⟨.inr ⟨e, rfl⟩, r.endsEarly_loadFile_of_unreadable m read path hhas e hread⟩
    | ok buffer =>
      exact .inl ⟨buffer, rfl, rfl, r.handsOver_loadFile m read path hhas buffer hread⟩

/-- A load from memory hands the given bytes over. A load from a file hands over what was read, or ends
early, and the latter exactly if the code file has a module already or the file cannot be read. -/
theorem loads_hand_over (bytes : List UInt8) :
    r.HandsOver m ⟨bytes⟩ (r.loadBuffer m bytes) ∧
      (∀ buffer, r.HandsOver m buffer (r.loadFile read m path) ↔
        r.has m = false ∧ (read path).result = .ok buffer) ∧
      (r.EndsEarly (r.loadFile read m path) ↔
        r.has m = true ∨ ∃ e, (read path).result = .error e) := by
  refine ⟨r.handsOver_handOver m ⟨bytes⟩, ?_, ?_⟩
  · intro buffer
    constructor
    · intro h
      obtain hfound | hearly := r.loadFile_cases m read path
      · obtain ⟨found, hhas, hread, hfound⟩ := hfound
        rw [r.buffer_eq_of_handsOver m buffer found _ h hfound]
        exact ⟨hhas, hread⟩
      · exact absurd hearly.2 (r.not_endsEarly_of_handsOver m buffer _ h)
    · intro h
      exact r.handsOver_loadFile m read path h.1 buffer h.2
  · constructor
    · intro hearly
      obtain hfound | h := r.loadFile_cases m read path
      · obtain ⟨buffer, -, -, hfound⟩ := hfound
        exact absurd hearly (r.not_endsEarly_of_handsOver m buffer _ hfound)
      · exact h.1
    · intro h
      obtain hfound | hearly := r.loadFile_cases m read path
      · -- A buffer was at hand, against what is assumed.
        obtain ⟨buffer, hhas, hread, -⟩ := hfound
        obtain hcontra | hcontra := h
        · rw [hhas] at hcontra
          cases hcontra
        · obtain ⟨e, hcontra⟩ := hcontra
          rw [hread] at hcontra
          cases hcontra
      · exact hearly.2

end Symbolication.Resolver
