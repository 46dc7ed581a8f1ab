import Mathlib.Data.List.Nodup
import Symbolication.Proofs.Resolver.Requests

/-!
The life of modules over a whole run, up to the drop of the resolver. A module that is rejected goes
before its load is over, and one that is registered stays until its code file is first unloaded or,
failing that, until the drop. Modules are told apart by their names here: no two of one name ever live
at the same time.
-/

namespace Symbolication

/-- A module of the name is made or destroyed. -/
def Event.isLife (key : String) : Event → Bool
  | .created name => name == key
  | .dropped name => name == key
  | _ => false

theorem Event.isLife_created (key : String) : Event.isLife key (.created key) = true :=
  beq_self_eq_true key

theorem Event.isLife_dropped (key : String) : Event.isLife key (.dropped key) = true :=
  beq_self_eq_true key

/-- The code file that the hooks are told was unloaded. -/
def Event.unloaded? : Event → Option String
  | .unloaded key => some key
  | _ => none

namespace Resolver

variable {μ σ : Type} (r : Resolver μ σ)

/-- What happens to modules and buffers during a run. -/
def eventsOfRun (r : Resolver μ σ) : List Request → List Event
  | [] => []
  | q :: qs => r.events q ++ (r.perform q).1.eventsOfRun qs

/-- The events of a run and of the drop after it. -/
def eventsOfLife (qs : List Request) : List Event := r.eventsOfRun qs ++ (r.after qs).finish

/-- All that a request can come to: its answer, the modules after it, and its events. -/
inductive Effect : Request → Answer → ModuleTable μ → List Event → Prop where
  /-- Queries, and loads that end before there is a buffer. -/
  | quiet (q : Request) (a : Answer) (hq : q.unloaded? = none) : Effect q a r.modules []
  | refused (q : Request) (key : String) (buffer content : SymbolBuffer) (e : ResolverError)
    (hq : q.loaded? = some key) (htaken : r.modules.contains key = true) :
    Effect q (.loaded (.error e)) r.modules [.stored key buffer, .released key content false]
  | rejected (q : Request) (key : String) (buffer content : SymbolBuffer) (e : ResolverError)
    (hq : q.loaded? = some key) (hfree : r.modules.contains key = false) :
    Effect q (.loaded (.error e)) r.modules
      [.stored key buffer, .created key, .parsed key content, .dropped key,
        .released key content false]
  | registered (q : Request) (key : String) (buffer content : SymbolBuffer) (loaded : μ)
    (hq : q.loaded? = some key) (hfree : r.modules.contains key = false) :
    Effect q (.loaded (.ok ())) (r.modules.insert key loaded)
      [.stored key buffer, .created key, .parsed key content, .released key content true]
  | unloaded (m : CodeModule) :
    Effect (.unload m) .unloaded (r.modules.erase m.codeFile)
      ((if r.modules.contains m.codeFile then [.dropped m.codeFile] else []) ++
        [.unloaded m.codeFile])

theorem effect_of_handsOver (q : Request) (m : CodeModule) (buffer : SymbolBuffer)
    (o : Outcome μ σ (Except ResolverError Unit)) (hq : q.loaded? = some m.codeFile)
    (ho : r.HandsOver m buffer o) :
    r.Effect q (.loaded o.result) o.resolver.modules o.trace.events := by
  have hevents := ho.events
  cases hr : o.result with
  | ok u =>
    have hfree : r.has m = false := (ho.ok_iff_accepted.mp hr).1
    have hmodules := ho.modules_of_ok hr
    rw [hr, ingestEvents, hfree] at hevents
    rw [hevents, hmodules]
    exact .registered q m.codeFile buffer _ _ hq hfree
  | error e =>
    -- What is left open is whether the code file was taken or the content was refused.
    have hmodules := ho.modules_of_error e hr
    rw [hr, ingestEvents] at hevents
    cases hhas : r.has m with
    | true =>
      rw [hhas] at hevents
      rw [hevents, hmodules]
      exact .refused q m.codeFile buffer _ e hq hhas
    | false =>
      rw [hhas] at hevents
      rw [hevents, hmodules]
      exact .rejected q m.codeFile buffer _ e hq hhas

theorem events_unload (m : CodeModule) :
    r.events (.unload m) =
      (if r.modules.contains m.codeFile then [.dropped m.codeFile] else []) ++
        [.unloaded m.codeFile] := by
  show (if r.has m then _ else _ : Trace).events ++ _ = _
  rw [apply_ite Trace.events]
  rfl

theorem Step.effect {q : Request} {s : Resolver μ σ} {a : Answer} {es : List Event}
    (h : r.Step q s a es) : r.Effect q a s.modules es := by
  cases h with
  | load _ m buffer o hq ho => exact r.effect_of_handsOver q m buffer o hq.loaded? ho
  | early _ e hq => exact .quiet q _ hq
  | unload m =>
    show r.Effect _ _ _ (r.events (.unload m))
    rw [r.events_unload m]
    exact .unloaded m
  | query _ _ hloaded hunloaded => exact .quiet q _ hunloaded

theorem effect (q : Request) :
    r.Effect q (r.perform q).2 (r.perform q).1.modules (r.events q) :=
  (r.step q).effect

/-! The lives of the modules of one name. -/

section Lives

variable (key : String)

/-- Lives of modules of the name, one after the other. -/
def lives (n : Nat) : List Event :=
  (List.replicate n [Event.created key, Event.dropped key]).flatten

/-- The end of the life of the registered module, if there is one. -/
def pending (t : ModuleTable μ) : List Event := if t.contains key then [.dropped key] else []

theorem lives_add (n k : Nat) : lives key (n + k) = lives key n ++ lives key k := by
  rw [lives, lives, lives, ← List.flatten_append, List.replicate_append_replicate]

variable {r} {q : Request} {a : Answer} {t : ModuleTable μ} {es : List Event}

/-- What was pending before a request comes first, then there are whole lives, and the end of the last
one may be left pending. -/
theorem Effect.filter_isLife (h : r.Effect q a t es) :
    ∃ n, es.filter (Event.isLife key) ++ pending key t = pending key r.modules ++ lives key n := by
  cases h with
  | quiet _ _ hq => exact ⟨0, (List.append_nil _).symm⟩
  | refused _ name buffer content e hq htaken => exact ⟨0, (List.append_nil _).symm⟩
  | rejected _ name buffer content e hq hfree =>
    by_cases hname : name = key
    · refine ⟨1, ?_⟩
      rw [hname] at hfree
      simp [Event.isLife, pending, lives, hname, hfree]
    · refine ⟨0, ?_⟩
      simp [Event.isLife, lives, hname]
  | registered _ name buffer content loaded hq hfree =>
    by_cases hname : name = key
    · refine ⟨1, ?_⟩
      rw [hname] at hfree
      simp [Event.isLife, pending, lives, hname, hfree, OrderedMap.contains_insert]
    · refine ⟨0, ?_⟩
      have hkey : key ≠ name := fun h => hname h.symm
      simp [Event.isLife, pending, lives, hname, hkey, OrderedMap.contains_insert]
  | unloaded m =>
    refine ⟨0, ?_⟩
    by_cases hname : m.codeFile = key
    · cases hlive : r.modules.contains key with
      | true => simp [Event.isLife, pending, lives, hname, hlive, OrderedMap.contains_erase]
      | false => simp [Event.isLife, pending, lives, hname, hlive, OrderedMap.contains_erase]
    · have hkey : key ≠ m.codeFile := fun h => hname h.symm
      cases r.modules.contains m.codeFile with
      | true => simp [Event.isLife, pending, lives, hname, hkey, OrderedMap.contains_erase]
      | false => simp [Event.isLife, pending, lives, hkey, OrderedMap.contains_erase]

theorem filter_eventsOfRun (r : Resolver μ σ) (qs : List Request) :
    ∃ n, (r.eventsOfRun qs).filter (Event.isLife key) ++ pending key (r.after qs).modules =
      pending key r.modules ++ lives key n := by
  -- What one request leaves pending is what the rest of the run begins with, so the two equations meet.
  induction qs generalizing r with
  | nil => exact ⟨0, (List.append_nil _).symm⟩
  | cons q qs ih =>
    obtain ⟨n, hfirst⟩ := (r.effect q).filter_isLife key
    obtain ⟨k, hrest⟩ := ih (r.perform q).1
    refine ⟨n + k, ?_⟩
    calc (r.eventsOfRun (q :: qs)).filter (Event.isLife key) ++ pending key (r.after (q :: qs)).modules
      _ = (r.events q).filter (Event.isLife key) ++
          (((r.perform q).1.eventsOfRun qs).filter (Event.isLife key) ++
            pending key ((r.perform q).1.after qs).modules) := by
        rw [eventsOfRun, List.filter_append, List.append_assoc]
        rfl
      _ = (r.events q).filter (Event.isLife key) ++ pending key (r.perform q).1.modules ++
          lives key k := by rw [hrest, List.append_assoc]
      _ = pending key r.modules ++ lives key (n + k) := by
        rw [hfirst, List.append_assoc, lives_add]

/-- The drop ends what is pending. -/
theorem filter_finish (r : Resolver μ σ) :
    r.finish.filter (Event.isLife key) = pending key r.modules := by
  have hnames : r.modules.keys.filter (· == key) = if r.modules.contains key then [key] else [] := by
    rw [List.filter_beq]
    by_cases hlive : r.modules.contains key = true
    · have hcount : r.modules.keys.count key = 1 :=
        List.count_eq_one_of_mem r.modules.nodup_keys (OrderedMap.mem_keys_iff.mpr hlive)
      rw [hcount, if_pos hlive]
      rfl
    · have hcount : r.modules.keys.count key = 0 :=
        List.count_eq_zero.mpr fun hmem => hlive (OrderedMap.mem_keys_iff.mp hmem)
      rw [hcount, if_neg hlive]
      rfl
  have hend : [Event.backendDropped, Event.cleared].filter (Event.isLife key) = [] := rfl
  have hkeys : Event.isLife key ∘ Event.dropped = (· == key) := rfl
  rw [finish, List.filter_append, hend, List.append_nil, List.filter_map, hkeys, hnames, pending,
    apply_ite (List.map Event.dropped)]
  rfl

theorem count_created_lives (n : Nat) : (lives key n).count (.created key) = n := by
  simp [lives, List.count_flatten]

theorem count_dropped_lives (n : Nat) : (lives key n).count (.dropped key) = n := by
  simp [lives, List.count_flatten]

theorem count_dropped_pending (t : ModuleTable μ) :
    (pending key t).count (.dropped key) = if t.contains key then 1 else 0 := by
  rw [pending]
  split <;> simp

theorem count_created_pending (t : ModuleTable μ) : (pending key t).count (.created key) = 0 := by
  rw [pending]
  split <;> simp

/-- A module that is registered is destroyed by no request but an unload of its code file. -/
theorem Effect.stays (h : r.Effect q a t es) (hlive : r.modules.contains key = true)
    (hq : q.unloaded? ≠ some key) : .dropped key ∉ es ∧ t.contains key = true := by
  cases h with
  | quiet _ _ _ => exact ⟨List.not_mem_nil, hlive⟩
  | refused _ name buffer content e _ htaken => exact ⟨by simp, hlive⟩
  | rejected _ name buffer content e _ hfree =>
    have hname : key ≠ name := by
      intro heq
      rw [← heq, hlive] at hfree
      cases hfree
    exact ⟨by simp [hname], hlive⟩
  | registered _ name buffer content loaded _ hfree =>
    refine ⟨by simp, ?_⟩
    rw [OrderedMap.contains_insert, hlive, Bool.or_true]
  | unloaded m =>
    have hname : key ≠ m.codeFile := by
      intro heq
      exact hq (congrArg some heq.symm)
    constructor
    · cases r.modules.contains m.codeFile with
      | true => simp [hname]
      | false => simp
    · rw [OrderedMap.contains_erase, hlive, decide_eq_false hname]
      rfl

/-- A load that makes a module rejects it or registers it. -/
theorem Effect.of_created (h : r.Effect q a t es) (hcreated : .created key ∈ es) :
    q.loaded? = some key ∧ ∃ buffer content,
      ((∃ e, a = .loaded (.error e)) ∧
        es = [.stored key buffer, .created key, .parsed key content, .dropped key,
          .released key content false]) ∨
      (a = .loaded (.ok ()) ∧
        es = [.stored key buffer, .created key, .parsed key content, .released key content true] ∧
        t.contains key = true) := by
  cases h with
  | quiet _ _ _ => cases hcreated
  | refused _ name buffer content e _ _ => simp at hcreated
  | rejected _ name buffer content e hq hfree =>
    have hname : key = name := by simpa using hcreated
    subst hname
    exact ⟨hq, buffer, content, Or.inl ⟨⟨e, rfl⟩, rfl⟩⟩
  | registered _ name buffer content loaded hq hfree =>
    have hname : key = name := by simpa using hcreated
    subst hname
    exact ⟨hq, buffer, content, Or.inr ⟨rfl, rfl, contains_insert_self _ _ _⟩⟩
  | unloaded m =>
    cases hlive : r.modules.contains m.codeFile with
    | true => simp [hlive] at hcreated
    | false => simp [hlive] at hcreated

/-- A registered module is destroyed by the first of the requests that unloads its code file, before
the hooks are told; if there is none, it is destroyed by the drop. -/
inductive EndsOnce (r : Resolver μ σ) (key : String) : List Request → Prop where
  | unload (kept : List Request) (m : CodeModule) (rest : List Request) (hm : m.codeFile = key)
    (hkept : ∀ q ∈ kept, q.unloaded? ≠ some key) (hstays : .dropped key ∉ r.eventsOfRun kept)
    (hevents : (r.after kept).events (.unload m) = [.dropped key, .unloaded key]) :
    EndsOnce r key (kept ++ .unload m :: rest)
  | drop (later : List Request) (hkept : ∀ q ∈ later, q.unloaded? ≠ some key)
    (hstays : .dropped key ∉ r.eventsOfRun later)
    (hevents : (r.after later).finish.count (.dropped key) = 1) : EndsOnce r key later

theorem count_dropped_finish (r : Resolver μ σ) (hlive : r.modules.contains key = true) :
    r.finish.count (.dropped key) = 1 := by
  have hfilter : (r.finish.filter (Event.isLife key)).count (.dropped key) =
      r.finish.count (.dropped key) := List.count_filter (Event.isLife_dropped key)
  rw [← hfilter, filter_finish, count_dropped_pending, if_pos hlive]

theorem endsOnce (r : Resolver μ σ) (hlive : r.modules.contains key = true)
    (later : List Request) : r.EndsOnce key later := by
  -- The name stays registered until the first unload of it, which is all that the induction carries.
  induction later generalizing r with
  | nil =>
    exact .drop [] (fun q hq => absurd hq List.not_mem_nil) List.not_mem_nil
      (count_dropped_finish key r hlive)
  | cons q later ih =>
    by_cases hq : q.unloaded? = some key
    · obtain ⟨m, rfl, hm⟩ := q.exists_unload key hq
      have hevents : r.events (.unload m) = [.dropped key, .unloaded key] := by
        rw [r.events_unload m, hm, if_pos hlive]
        rfl
      exact .unload [] m later hm (fun q hq => absurd hq List.not_mem_nil) List.not_mem_nil hevents
    · obtain ⟨hstays, hlive⟩ := (r.effect q).stays key hlive hq
      cases ih (r.perform q).1 hlive with
      | unload kept m rest hm hkept hdropped hevents =>
        exact .unload (q :: kept) m rest hm (List.forall_mem_cons.mpr ⟨hq, hkept⟩)
          (List.not_mem_append hstays hdropped) hevents
      | drop _ hkept hdropped hevents =>
        exact .drop (q :: later) (List.forall_mem_cons.mpr ⟨hq, hkept⟩)
          (List.not_mem_append hstays hdropped) hevents

end Lives

/-! What the hooks and the backend see of the end. -/

section Ends

variable {r} {q : Request} {a : Answer} {t : ModuleTable μ} {es : List Event}

theorem Effect.filterMap_unloaded? (h : r.Effect q a t es) :
    es.filterMap Event.unloaded? = q.unloaded?.toList := by
  cases h with
  | quiet _ _ hq =>
    rw [hq]
    rfl
  | refused _ name buffer content e hq htaken =>
    rw [q.unloaded?_of_loaded? name hq]
    rfl
  | rejected _ name buffer content e hq hfree =>
    rw [q.unloaded?_of_loaded? name hq]
    rfl
  | registered _ name buffer content loaded hq hfree =>
    rw [q.unloaded?_of_loaded? name hq]
    rfl
  | unloaded m => cases r.modules.contains m.codeFile <;> rfl

theorem Effect.not_mem_of_end (h : r.Effect q a t es) :
    .backendDropped ∉ es ∧ .cleared ∉ es := by
  cases h with
  | quiet _ _ hq => exact ⟨List.not_mem_nil, List.not_mem_nil⟩
  | refused _ name buffer content e hq htaken => simp
  | rejected _ name buffer content e hq hfree => simp
  | registered _ name buffer content loaded hq hfree => simp
  | unloaded m => cases r.modules.contains m.codeFile <;> simp

theorem filterMap_unloaded?_eventsOfRun (r : Resolver μ σ) (qs : List Request) :
    (r.eventsOfRun qs).filterMap Event.unloaded? = qs.filterMap Request.unloaded? := by
  induction qs generalizing r with
  | nil => rfl
  | cons q qs ih =>
    rw [eventsOfRun, List.filterMap_append, (r.effect q).filterMap_unloaded?, ih,
      List.filterMap_cons]
    cases q.unloaded? <;> rfl

theorem not_mem_of_end_eventsOfRun (r : Resolver μ σ) (qs : List Request) :
    .backendDropped ∉ r.eventsOfRun qs ∧ .cleared ∉ r.eventsOfRun qs := by
  induction qs generalizing r with
  | nil => exact ⟨List.not_mem_nil, List.not_mem_nil⟩
  | cons q qs ih =>
    have hfirst := (r.effect q).not_mem_of_end
    have hrest := ih (r.perform q).1
    exact ⟨List.not_mem_append hfirst.1 hrest.1, List.not_mem_append hfirst.2 hrest.2⟩

end Ends

/-- The lives of all modules in a run that ends with the drop. -/
structure Lifecycle (qs : List Request) : Prop where
  /-- A module is destroyed once, and before another one of its name is made. -/
  paired : ∀ key, ∃ n, (r.eventsOfLife qs).filter (Event.isLife key) =
    (List.replicate n [Event.created key, Event.dropped key]).flatten
  /-- Between requests the modules that live are those that are registered. -/
  alive : ∀ before later, qs = before ++ later → ∀ key,
    (r.eventsOfRun before).count (.created key) = (r.eventsOfRun before).count (.dropped key) +
      if (r.after before).modules.contains key then 1 else 0
  /-- A module that is rejected is destroyed before its load is over; one that is registered is not. -/
  load : ∀ before q later, qs = before ++ q :: later → ∀ key,
    .created key ∈ (r.after before).events q → q.loaded? = some key ∧ ∃ buffer content,
      ((∃ e, ((r.after before).perform q).2 = .loaded (.error e)) ∧
        (r.after before).events q = [.stored key buffer, .created key, .parsed key content,
          .dropped key, .released key content false]) ∨
      (((r.after before).perform q).2 = .loaded (.ok ()) ∧
        (r.after before).events q = [.stored key buffer, .created key, .parsed key content,
          .released key content true] ∧
        ((r.after before).perform q).1.EndsOnce key later)
  unload : ∀ before m later, qs = before ++ .unload m :: later →
    (r.after before).events (.unload m) =
      (if (r.after before).modules.contains m.codeFile then [.dropped m.codeFile] else []) ++
        [.unloaded m.codeFile]
  /-- The hooks are told once of each unload, in order. -/
  told : (r.eventsOfLife qs).filterMap Event.unloaded? = qs.filterMap Request.unloaded?
  /-- The drop destroys what is still registered, then the backend, and clears the hooks; nothing of
  the last two happens before. -/
  drop : ∃ names : List String, names.Nodup ∧
    (∀ key, key ∈ names ↔ (r.after qs).modules.contains key = true) ∧
    r.eventsOfLife qs =
      r.eventsOfRun qs ++ (names.map Event.dropped ++ [.backendDropped, .cleared]) ∧
    .backendDropped ∉ r.eventsOfRun qs ∧ .cleared ∉ r.eventsOfRun qs

section Fresh

variable (b : Backend μ) (hooks : Hooks σ) (state : σ)

def fresh : Resolver μ σ where
  backend := b
  hooks := hooks
  hookState := state

theorem pending_fresh (key : String) : pending key (fresh b hooks state).modules = [] := rfl

theorem count_created_eventsOfRun (qs : List Request) (key : String) :
    ((fresh b hooks state).eventsOfRun qs).count (.created key) =
      ((fresh b hooks state).eventsOfRun qs).count (.dropped key) +
        if ((fresh b hooks state).after qs).modules.contains key then 1 else 0 := by
  have hfilter (e : Event) (he : Event.isLife key e = true) :
      (((fresh b hooks state).eventsOfRun qs).filter (Event.isLife key)).count e =
        ((fresh b hooks state).eventsOfRun qs).count e := List.count_filter he
  obtain ⟨n, hlives⟩ := filter_eventsOfRun key (fresh b hooks state) qs
  rw [pending_fresh, List.nil_append] at hlives
  have hcreated := congrArg (List.count (Event.created key)) hlives
  have hdropped := congrArg (List.count (Event.dropped key)) hlives
  rw [List.count_append, hfilter _ (Event.isLife_created key), count_created_pending,
    count_created_lives] at hcreated
  rw [List.count_append, hfilter _ (Event.isLife_dropped key), count_dropped_pending,
    count_dropped_lives] at hdropped
  omega

theorem filter_eventsOfLife (qs : List Request) (key : String) :
    ∃ n, ((fresh b hooks state).eventsOfLife qs).filter (Event.isLife key) = lives key n := by
  obtain ⟨n, hlives⟩ := filter_eventsOfRun key (fresh b hooks state) qs
  rw [pending_fresh, List.nil_append] at hlives
  refine ⟨n, ?_⟩
  rw [eventsOfLife, List.filter_append, filter_finish, hlives]

/-- In every run from a resolver without modules that ends with its drop, whatever the hooks and the
backend, each module that is made is destroyed exactly once, and at the right moment. -/
theorem modules_live_and_end_once (qs : List Request) :
    (fresh b hooks state).Lifecycle qs := by
  refine ⟨filter_eventsOfLife b hooks state qs, ?_, ?_, ?_, ?_, ?_⟩
  · intro before later hqs key
    exact count_created_eventsOfRun b hooks state before key
  · intro before q later hqs key hcreated
    let r := (fresh b hooks state).after before
    obtain ⟨hq, buffer, content, hload⟩ := (r.effect q).of_created key hcreated
    refine ⟨hq, buffer, content, ?_⟩
    rcases hload with hrejected | ⟨hanswer, hevents, hlive⟩
    · exact Or.inl hrejected
    · exact Or.inr ⟨hanswer, hevents, endsOnce key (r.perform q).1 hlive later⟩
  · intro before m later hqs
    exact events_unload _ m
  · have hfinish : ((fresh b hooks state).after qs).finish.filterMap Event.unloaded? = [] := by
      apply List.filterMap_eq_nil_iff.mpr
      intro e he
      rcases List.mem_append.mp he with he | he
      · obtain ⟨name, -, rfl⟩ := List.mem_map.mp he
        rfl
      · rcases List.mem_pair.mp he with rfl | rfl <;> rfl
    rw [eventsOfLife, List.filterMap_append, filterMap_unloaded?_eventsOfRun, hfinish,
      List.append_nil]
  · let r := (fresh b hooks state).after qs
    exact ⟨r.modules.keys, r.modules.nodup_keys, fun key => OrderedMap.mem_keys_iff, rfl,
      not_mem_of_end_eventsOfRun _ qs⟩

end Fresh

end Resolver

end Symbolication
