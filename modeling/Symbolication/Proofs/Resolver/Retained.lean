import Mathlib.Data.List.Basic
import Symbolication.Proofs.Resolver.Requests

/-!
Runs of a resolver that retains buffers. Hooks that leave every buffer as it is make no difference to
any answer, so the resolver registers what one without hooks would register; and the retained buffers
are those that the registered modules were loaded with, code file by code file.
-/

namespace Symbolication

/-- The hooks leave every buffer as it is. -/
def Hooks.KeepContent {σ : Type} (h : Hooks σ) : Prop :=
  ∀ state m buffer, (h.store state m buffer).2 = buffer

theorem Hooks.keepContent_retaining : Hooks.retaining.KeepContent := fun _ _ _ => rfl

namespace Resolver

section WithoutHooks

variable {μ σ : Type} (r : Resolver μ σ)

/-- The same modules, with hooks that keep nothing. -/
def withoutHooks : Resolver μ Unit where
  backend := r.backend
  hooks := .discarding
  hookState := ()
  modules := r.modules

theorem ingest_withoutHooks (m : CodeModule) (content : SymbolBuffer) :
    (r.withoutHooks.ingest m content).result = (r.ingest m content).result ∧
      (r.withoutHooks.ingest m content).resolver = (r.ingest m content).resolver.withoutHooks := by
  cases hhas : r.has m with
  | true =>
    rw [r.ingest_of_has m content hhas, r.withoutHooks.ingest_of_has m content hhas]
    exact ⟨rfl, rfl⟩
  | false =>
    cases herror : (r.parsedAnew m content).error with
    | some e =>
      obtain ⟨log, hingest⟩ := r.ingest_of_rejected m content e hhas herror
      obtain ⟨log', hingest'⟩ := r.withoutHooks.ingest_of_rejected m content e hhas herror
      rw [hingest, hingest']
      exact ⟨rfl, rfl⟩
    | none =>
      obtain ⟨log, hingest⟩ := r.ingest_of_accepted m content hhas herror
      obtain ⟨log', hingest'⟩ := r.withoutHooks.ingest_of_accepted m content hhas herror
      rw [hingest, hingest']
      exact ⟨rfl, rfl⟩

variable {r} (hkeep : r.hooks.KeepContent)

include hkeep

theorem handOver_withoutHooks (m : CodeModule) (buffer : SymbolBuffer) :
    (r.withoutHooks.handOver m buffer).result = (r.handOver m buffer).result ∧
      (r.withoutHooks.handOver m buffer).resolver =
        (r.handOver m buffer).resolver.withoutHooks := by
  have hcontent : r.contentOf m buffer = buffer := hkeep r.hookState m buffer
  have hingest := (r.afterStore m buffer).ingest_withoutHooks m (r.contentOf m buffer)
  constructor
  · show (r.withoutHooks.ingest m buffer).result =
      ((r.afterStore m buffer).ingest m (r.contentOf m buffer)).result
    rw [← hingest.1, hcontent]
    rfl
  · show (r.withoutHooks.ingest m buffer).resolver =
      ((r.afterStore m buffer).ingest m (r.contentOf m buffer)).resolver.withoutHooks
    rw [← hingest.2, hcontent]
    rfl

theorem perform_withoutHooks (q : Request) :
    (r.withoutHooks.perform q).2 = (r.perform q).2 ∧
      (r.withoutHooks.perform q).1 = (r.perform q).1.withoutHooks := by
  -- Only a load asks the hooks for anything, and what they give back is the buffer itself.
  cases q with
  | loadFile read m path =>
    cases hhas : r.has m with
    | true =>
      have hhas' : r.withoutHooks.has m = true := hhas
      simp only [perform, loadFile, hhas, hhas']
      exact ⟨rfl, rfl⟩
    | false =>
      have hhas' : r.withoutHooks.has m = false := hhas
      cases hread : (read path).result with
      | error e =>
        simp only [perform, loadFile, hhas, hhas', hread]
        exact ⟨rfl, rfl⟩
      | ok buffer =>
        have hload := handOver_withoutHooks hkeep m buffer
        simp only [perform, loadFile, hhas, hhas', hread]
        exact ⟨congrArg Answer.loaded hload.1, hload.2⟩
  | loadBuffer m bytes =>
    have hload := handOver_withoutHooks hkeep m ⟨bytes⟩
    exact ⟨congrArg Answer.loaded hload.1, hload.2⟩
  | unload m => exact ⟨rfl, rfl⟩
  | has m | count | codeFiles | fill frame | layout frame | rules frame => exact ⟨rfl, rfl⟩

theorem keepContent_perform (q : Request) : (r.perform q).1.hooks.KeepContent := by
  rw [(r.step q).hooks]
  exact hkeep

theorem history_withoutHooks (qs : List Request) :
    r.withoutHooks.history qs = r.history qs := by
  induction qs generalizing r with
  | nil => rfl
  | cons q qs ih =>
    have hstep := perform_withoutHooks hkeep q
    rw [history, history, hstep.1, hstep.2, ih (keepContent_perform hkeep q)]

/-- What holds of the answers without hooks holds of the answers with them. -/
theorem ActsAs.of_withoutHooks {b : Backend μ} {data? : String → Option SymbolBuffer}
    (h : r.withoutHooks.ActsAs b data?) : r.ActsAs b data? := by
  have hanswer (q : Request) : (r.perform q).2 = (r.withoutHooks.perform q).2 :=
    (perform_withoutHooks hkeep q).1.symm
  refine ⟨?_, ?_, ?_, ?_, ?_, ?_, ?_, ?_⟩
  · intro m bytes
    rw [hanswer]
    exact h.loadBuffer_ok m bytes
  · intro read m path
    rw [hanswer]
    exact h.loadFile_ok read m path
  · intro q e herror later
    rw [hanswer] at herror
    have hlater := h.load_error q e herror later
    rw [(perform_withoutHooks hkeep q).2, history_withoutHooks (keepContent_perform hkeep q),
      history_withoutHooks hkeep] at hlater
    exact hlater
  · intro m
    rw [hanswer]
    exact h.has m
  · simp only [hanswer]
    exact h.codeFiles
  · intro frame
    rw [hanswer]
    exact h.fill frame
  · intro frame
    rw [hanswer]
    exact h.layout frame
  · intro frame
    rw [hanswer]
    exact h.rules frame

end WithoutHooks

variable {μ : Type} (b : Backend μ)

/-- The resolver without modules whose hooks retain buffers. -/
def retaining : Resolver μ RetainedBuffers where
  backend := b
  hooks := .retaining
  hookState := ∅

/-- The invariant of a run: the modules are those for the data of their code files, and this data is
what is retained. -/
structure Mirrors (r : Resolver μ RetainedBuffers) (data? : String → Option SymbolBuffer) :
    Prop where
  hooks : r.hooks = .retaining
  registered : r.withoutHooks.Holds b data?
  retained : ∀ key, r.hookState.get? key = data? key

namespace Mirrors

variable {b} {r : Resolver μ RetainedBuffers} {data? : String → Option SymbolBuffer}
  (h : r.Mirrors b data?)

include h

theorem keepContent : r.hooks.KeepContent := by
  rw [h.hooks]
  exact Hooks.keepContent_retaining

theorem hookState_eq (m : CodeModule) (buffer : SymbolBuffer)
    (o : Outcome μ RetainedBuffers (Except ResolverError Unit)) (ho : r.HandsOver m buffer o) :
    o.resolver.hookState = (r.hookState.retain m buffer o.result.isOk).value := by
  rw [ho.hookState, afterStore, contentOf, h.hooks]
  rfl

theorem retained_of_ok (m : CodeModule) (buffer : SymbolBuffer)
    (o : Outcome μ RetainedBuffers (Except ResolverError Unit)) (ho : r.HandsOver m buffer o)
    (hok : o.result = .ok ()) (key : String) :
    o.resolver.hookState.get? key = if m.codeFile = key then some buffer else data? key := by
  have hstate : o.resolver.hookState = r.hookState.insert m.codeFile buffer := by
    rw [h.hookState_eq m buffer o ho, hok]
    rfl
  rw [hstate, OrderedMap.get?_insert, h.retained]
  simp only [eq_comm]

theorem retained_of_error (m : CodeModule) (buffer : SymbolBuffer) (e : ResolverError)
    (o : Outcome μ RetainedBuffers (Except ResolverError Unit)) (ho : r.HandsOver m buffer o)
    (herror : o.result = .error e) (key : String) :
    o.resolver.hookState.get? key = data? key := by
  have hstate : o.resolver.hookState = r.hookState := by
    rw [h.hookState_eq m buffer o ho, herror]
    rfl
  rw [hstate, h.retained]

theorem retained_unload (m : CodeModule) (key : String) :
    (r.unload m).resolver.hookState.get? key =
      if m.codeFile = key then none else data? key := by
  have hstate : (r.unload m).resolver.hookState = (r.hookState.release m).value := by
    show (r.hooks.unload r.hookState m).value = _
    rw [h.hooks]
    rfl
  rw [hstate, RetainedBuffers.release]
  split
  · rw [OrderedMap.get?_erase, h.retained]
    simp only [eq_comm]
  · -- Nothing is held for the code file, so there is nothing to release.
    rename_i hfree
    rw [OrderedMap.contains_eq, h.retained, Option.not_isSome_iff_eq_none] at hfree
    rw [h.retained]
    split
    · rename_i hkey
      rw [← hkey, hfree]
    · rfl

theorem retained_step (q : Request) (s : Resolver μ RetainedBuffers) (a : Answer)
    (es : List Event) (hstep : r.Step q s a es) (key : String) :
    s.hookState.get? key = dataAfter key (data? key) (q, a) := by
  cases hstep with
  | load _ m buffer o hq ho =>
    cases hr : o.result with
    | ok u =>
      rw [dataAfter_ok key _ q m buffer hq]
      exact h.retained_of_ok m buffer o ho hr key
    | error e =>
      rw [dataAfter_error key _ q e (q.unloaded?_of_loaded? _ hq.loaded?)]
      exact h.retained_of_error m buffer e o ho hr key
  | early _ e hq =>
    rw [dataAfter_error key _ q e hq]
    exact h.retained key
  | unload m => exact h.retained_unload m key
  | query _ _ hloaded hunloaded =>
    rw [dataAfter_query key _ q a hloaded hunloaded]
    exact h.retained key

theorem perform (q : Request) :
    (r.perform q).1.Mirrors b fun key => dataAfter key (data? key) (q, (r.perform q).2) := by
  have hstep := perform_withoutHooks h.keepContent q
  have hregistered := h.registered.perform b data? r.withoutHooks q
  rw [hstep.1, hstep.2] at hregistered
  exact ⟨(r.step q).hooks.trans h.hooks, hregistered, h.retained_step q _ _ _ (r.step q)⟩

theorem after (qs : List Request) :
    (r.after qs).Mirrors b fun key => (r.history qs).foldl (dataAfter key) (data? key) := by
  induction qs generalizing r data? with
  | nil => exact h
  | cons q qs ih => exact ih (h.perform q)

theorem modules_eq (key : String) :
    r.modules.get? key = (r.hookState.get? key).map (b.standalone key) := by
  rw [h.retained]
  exact h.registered.modules key

theorem entries_modules :
    r.modules.entries = r.hookState.entries.map fun e => (e.1, b.standalone e.1 e.2) :=
  OrderedMap.entries_eq_map r.hookState r.modules b.standalone h.modules_eq

theorem keys_eq : r.hookState.keys = r.modules.keys := by
  rw [OrderedMap.keys, OrderedMap.keys, h.entries_modules, List.map_map]
  rfl

/-- The retained buffers, one after the other, are the data of the registered code files. -/
theorem values_eq : r.hookState.values = r.modules.keys.filterMap data? := by
  have hmem : ∀ e ∈ r.hookState.entries, (data? ∘ Prod.fst) e = some e.2 := by
    intro e he
    show data? e.1 = some e.2
    rw [← h.retained]
    exact OrderedMap.get?_eq_some_iff.mpr he
  rw [← h.keys_eq, OrderedMap.keys, OrderedMap.values, List.filterMap_map]
  exact (List.filterMap_eq_map_iff_forall_eq_some.mpr hmem).symm

theorem actsAs : r.ActsAs b data? := by
  apply ActsAs.of_withoutHooks h.keepContent
  exact h.registered.actsAs b data? r.withoutHooks

end Mirrors

theorem mirrors_retaining : (retaining b).Mirrors b fun _ => none :=
  ⟨rfl, ⟨rfl, rfl, fun _ => rfl⟩, fun _ => rfl⟩

/-- After any run the code files with a retained buffer are the registered ones; what is retained for a
code file is the data of the load that registered it, so the registered module is the one made for
this data alone, and the sizes follow. -/
theorem retained_buffers_mirror_modules (qs : List Request) :
    let r := (retaining b).after qs
    let data? := lastData? ((retaining b).history qs)
    r.hookState.keys = r.modules.keys ∧
      (∀ key, r.hookState.get? key = data? key) ∧
      (∀ key, r.modules.get? key = (r.hookState.get? key).map (b.standalone key)) ∧
      r.ActsAs b r.hookState.get? ∧
      r.hookState.size = r.modules.size ∧
      r.hookState.byteCount =
        (r.modules.keys.filterMap data?).foldl (fun n buffer => n + (buffer.content.length + 1)) 0 := by
  intro r data?
  have h : r.Mirrors b data? := (mirrors_retaining b).after qs
  have hretained : r.hookState.get? = data? := funext h.retained
  refine ⟨h.keys_eq, h.retained, h.modules_eq, ?_, ?_, ?_⟩
  · rw [hretained]
    exact h.actsAs
  · have hlength := congrArg List.length h.entries_modules
    rw [List.length_map] at hlength
    exact hlength.symm
  · rw [RetainedBuffers.byteCount, h.values_eq]
    rfl

end Resolver

end Symbolication
