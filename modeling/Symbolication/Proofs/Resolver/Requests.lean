import Symbolication.Proofs.Resolver.Registry

/-!
What a request can come to, in a form that is taken apart by cases. A load that has got a buffer hands
it over, and an unload destroys; a load that ends before there is a buffer and a query leave the
resolver as it is, and nothing happens in them.
-/

namespace Symbolication

namespace Request

/-- The code file that the request loads. -/
def loaded? : Request → Option String
  | .loadFile _ m _ => some m.codeFile
  | .loadBuffer m _ => some m.codeFile
  | _ => none

/-- The code file that the request unloads. -/
def unloaded? : Request → Option String
  | .unload m => some m.codeFile
  | _ => none

/-- The request loads the module, and the buffer is what there is to load. -/
inductive Brings : Request → CodeModule → SymbolBuffer → Prop where
  | file (read : String → Reading) (m : CodeModule) (path : String) (buffer : SymbolBuffer)
    (hread : (read path).result = .ok buffer) : Brings (.loadFile read m path) m buffer
  | memory (m : CodeModule) (bytes : List UInt8) : Brings (.loadBuffer m bytes) m ⟨bytes⟩

theorem Brings.loaded? {q : Request} {m : CodeModule} {buffer : SymbolBuffer}
    (h : q.Brings m buffer) : q.loaded? = some m.codeFile := by
  cases h with
  | file read m path buffer hread => rfl
  | memory m bytes => rfl

theorem unloaded?_of_loaded? (q : Request) (key : String) (h : q.loaded? = some key) :
    q.unloaded? = none := by
  cases q with
  | loadFile read m path | loadBuffer m bytes => rfl
  | unload m | has m | count | codeFiles | fill frame | layout frame | rules frame => cases h

theorem exists_unload (q : Request) (key : String) (h : q.unloaded? = some key) :
    ∃ m, q = .unload m ∧ m.codeFile = key := by
  cases q with
  | unload m => exact ⟨m, rfl, Option.some.inj h⟩
  | loadFile read m path | loadBuffer m bytes => cases h
  | has m | count | codeFiles | fill frame | layout frame | rules frame => cases h

end Request

section DataAfter

variable (key : String) (data : Option SymbolBuffer) (q : Request)

theorem dataAfter_ok (m : CodeModule) (buffer : SymbolBuffer) (hq : q.Brings m buffer) :
    dataAfter key data (q, .loaded (.ok ())) =
      if m.codeFile = key then some buffer else data := by
  cases hq with
  | file read m path buffer hread =>
    have hbuffer : (read path).result.toOption = some buffer := by
      rw [hread]
      rfl
    rw [dataAfter, hbuffer]
  | memory m bytes => rfl

theorem dataAfter_error (e : ResolverError) (hq : q.unloaded? = none) :
    dataAfter key data (q, .loaded (.error e)) = data := by
  cases q with
  | unload m => cases hq
  | loadFile read m path | loadBuffer m bytes => rfl
  | has m | count | codeFiles | fill frame | layout frame | rules frame => rfl

theorem dataAfter_query (a : Answer) (hloaded : q.loaded? = none) (hunloaded : q.unloaded? = none) :
    dataAfter key data (q, a) = data := by
  cases q with
  | loadFile read m path | loadBuffer m bytes => cases hloaded
  | unload m => cases hunloaded
  | has m | count | codeFiles | fill frame | layout frame | rules frame => rfl

end DataAfter

namespace Resolver

variable {μ σ : Type} (r : Resolver μ σ)

/-- What happens to modules and buffers during a request. -/
def events : Request → List Event
  | .loadFile read m path => (r.loadFile read m path).trace.events
  | .loadBuffer m bytes => (r.loadBuffer m bytes).trace.events
  | .unload m => (r.unload m).trace.events
  | .has _ | .count | .codeFiles | .fill _ | .layout _ | .rules _ => []

/-- A request with the resolver after it, its answer and its events. -/
inductive Step : Request → Resolver μ σ → Answer → List Event → Prop where
  | load (q : Request) (m : CodeModule) (buffer : SymbolBuffer)
    (o : Outcome μ σ (Except ResolverError Unit)) (hq : q.Brings m buffer)
    (ho : r.HandsOver m buffer o) : Step q o.resolver (.loaded o.result) o.trace.events
  | early (q : Request) (e : ResolverError) (hq : q.unloaded? = none) :
    Step q r (.loaded (.error e)) []
  | unload (m : CodeModule) :
    Step (.unload m) (r.unload m).resolver .unloaded (r.unload m).trace.events
  | query (q : Request) (a : Answer) (hloaded : q.loaded? = none)
    (hunloaded : q.unloaded? = none) : Step q r a []

theorem step (q : Request) : r.Step q (r.perform q).1 (r.perform q).2 (r.events q) := by
  cases q with
  | loadFile read m path =>
    show r.Step _ (r.loadFile read m path).resolver (.loaded (r.loadFile read m path).result)
      (r.loadFile read m path).trace.events
    rcases r.loadFile_cases m read path with ⟨buffer, -, hread, hfound⟩ | ⟨-, hearly⟩
    · exact .load _ m buffer _ (.file read m path buffer hread) hfound
    · obtain ⟨e, he⟩ := hearly.result
      rw [hearly.resolver, he, hearly.events]
      exact .early _ e rfl
  | loadBuffer m bytes =>
    exact .load _ m ⟨bytes⟩ _ (.memory m bytes) (r.handsOver_handOver m ⟨bytes⟩)
  | unload m => exact .unload m
  | has m | count | codeFiles | fill frame | layout frame | rules frame => exact .query _ _ rfl rfl

variable {r}

theorem Step.hooks {q : Request} {s : Resolver μ σ} {a : Answer} {es : List Event}
    (h : r.Step q s a es) : s.hooks = r.hooks := by
  cases h with
  | load _ m buffer o hq ho => exact ho.hooks
  | early _ e hq => rfl
  | unload m => rfl
  | query _ _ hloaded hunloaded => rfl

end Resolver

end Symbolication
