import JobConsole.Proofs.Execution.Lifecycle
import JobConsole.Registry.Completion

/-! # Searches under way

Whoever asks for the artifacts of a job looks the job up, searches the files without holding
anything up, and announces what was found in a step of its own; anything can come in between. So do
requests, and so does a completion handler, which takes up one finished job after the other.
Whatever is still to be announced is not empty, and its job is at its end.
-/

namespace JobConsole

structure Finding where
  jobId : String
  artifacts : List Artifact
  deriving DecidableEq

inductive Phase where
  | idle
  /-- It has been told that the job is finished. -/
  | told (jobId : String)
  | found (f : Finding)
  deriving DecidableEq

def Phase.finding? : Phase → Option Finding
  | found f => some f
  | _ => none

/-- A completion handler at work, and what it has come to so far. -/
structure Handling where
  subscription : Nat
  phase : Phase
  resolved : List Finding

namespace Handling

def take (h : Handling) (r : Registry) : Handling :=
  match h.phase, (r.bus.tryReceive h.subscription).1 with
  | .idle, some e => { h with phase := if e.isFinished then .told e.jobId else .idle }
  | _, _ => h

def look (h : Handling) (r : Registry) (files : FileSystem) : Handling :=
  match h.phase with
  | .told id =>
    match r.findArtifacts files id with
    | .error _ => { h with phase := .idle }
    | .ok [] => { h with phase := .idle, resolved := h.resolved ++ [⟨id, []⟩] }
    | .ok found => { h with phase := .found ⟨id, found⟩ }
  | _ => h

/-- Goes on once what it has found is announced. -/
def finish (h : Handling) : Handling :=
  match h.phase with
  | .found f => { h with phase := .idle, resolved := h.resolved ++ [f] }
  | _ => h

end Handling

/-- A registry, what requests have found and not announced yet, and the completion handler, if there
is one. -/
structure Depot where
  registry : Registry
  finds : List Finding
  handling : Option Handling

namespace Depot

inductive Act where
  /-- An operation of the registry that no search is needed for. -/
  | operate (o : Timed)
  /-- A request looks a job up and searches the files. -/
  | ask (id : String) (announced : Bool) (files : FileSystem)
  /-- A request announces what it has found. -/
  | tell (k : Nat) (now : Timestamp)
  /-- The completion handler is set up. -/
  | attach
  | take
  | look (files : FileSystem)
  | finish (now : Timestamp)

/-- The act announces a list that no search has found. -/
def Act.isUnsought : Act → Bool
  | .operate o =>
    match o.op with
    | .announce .. => true
    | _ => false
  | _ => false

def start (r : Registry) : Depot := ⟨r, [], none⟩

def sought (d : Depot) (id : String) (announced : Bool) (files : FileSystem) : List Finding :=
  match d.registry.findArtifacts files id with
  | .error _ => []
  | .ok found => if announced && !found.isEmpty then [⟨id, found⟩] else []

/-- Jobs are changed by their tasks only, and the handle of the completion handler is used by it
only. -/
def allows (d : Depot) : Operation → Bool
  | .change .. => false
  | .use s _ => d.handling.all (·.subscription ≠ s)
  | _ => true

def announcing (now : Timestamp) (f : Option Finding) : Option Timed :=
  f.map fun f => ⟨now, .announce f.jobId f.artifacts⟩

def finding? (d : Depot) : Option Finding := d.handling.bind (·.phase.finding?)

/-- What an act asks of the registry. -/
def op? (d : Depot) : Act → Option Timed
  | .operate o => if d.allows o.op then some o else none
  | .tell k now => announcing now d.finds[k]?
  | .attach => if d.handling.isNone then some ⟨default, .subscribeAll⟩ else none
  | .take =>
    match d.handling with
    | some ⟨s, .idle, _⟩ => some ⟨default, .use s .receive⟩
    | _ => none
  | .finish now => announcing now d.finding?
  | .ask .. | .look .. => none

def registryAfter (d : Depot) (a : Act) : Registry :=
  match a, d.handling with
  | .attach, none => (CompletionHandler.attach d.registry).2
  | _, _ => d.registry.runAll (d.op? a).toList

def act (d : Depot) (a : Act) : Depot where
  registry := d.registryAfter a
  finds :=
    match a with
    | .ask id announced files => d.finds ++ d.sought id announced files
    | .tell k _ => d.finds.eraseIdx k
    | _ => d.finds
  handling :=
    match a with
    | .attach =>
      d.handling.or (some ⟨(CompletionHandler.attach d.registry).1.subscription, .idle, []⟩)
    | .take => d.handling.map (·.take d.registry)
    | .look files => d.handling.map (·.look d.registry files)
    | .finish _ => d.handling.map Handling.finish
    | _ => d.handling

def run (d : Depot) (as : List Act) : Depot := as.foldl act d

def history (d : Depot) : List Act → List Timed
  | [] => []
  | a :: as => (d.op? a).toList ++ (d.act a).history as

def said (d : Depot) (as : List Act) : List Event :=
  (d.registry.busHistory (d.history as)).flatMap Bus.Act.events

def published (d : Depot) (id : String) (as : List Act) : List Event :=
  (d.said as).filter (·.jobId = id)

/-- What is found and still to be announced. -/
def underway (d : Depot) : List Finding := d.finds ++ d.finding?.toList

variable {d : Depot} {a : Act} {as as' : List Act} {f : Finding} {id : String}

theorem run_append (d : Depot) (as as' : List Act) : d.run (as ++ as') = (d.run as).run as' :=
  List.foldl_append

theorem history_append (d : Depot) (as as' : List Act) :
    d.history (as ++ as') = d.history as ++ (d.run as).history as' := by
  induction as generalizing d with
  | nil => rfl
  | cons a as ih =>
    rw [List.cons_append, history, ih, history, List.append_assoc]
    rfl

@[simp] theorem registryAfter_eq (d : Depot) (a : Act) :
    d.registryAfter a = d.registry.runAll (d.op? a).toList := by
  unfold registryAfter
  split
  next hn =>
    -- setting the handler up is a subscription to every job
    rw [op?, hn]
    rfl
  next => rfl

theorem registry_act (d : Depot) (a : Act) :
    (d.act a).registry = d.registry.runAll (d.op? a).toList :=
  registryAfter_eq d a

theorem registry_run (d : Depot) (as : List Act) :
    (d.run as).registry = d.registry.runAll (d.history as) := by
  induction as generalizing d with
  | nil => rfl
  | cons a as ih =>
    rw [history, Registry.runAll_append, ← registry_act]
    exact ih (d.act a)

theorem published_eq (d : Depot) (id : String) (as : List Act) :
    d.published id as = d.registry.published id (d.history as) := rfl

theorem said_append (d : Depot) (as as' : List Act) :
    d.said (as ++ as') = d.said as ++ (d.run as).said as' := by
  rw [said, history_append, Registry.busHistory_append, List.flatMap_append, ← registry_run]
  rfl

theorem published_append (d : Depot) (id : String) (as as' : List Act) :
    d.published id (as ++ as') = d.published id as ++ (d.run as).published id as' := by
  rw [published, said_append, List.filter_append]
  rfl

/-! ## Searches -/

end Depot

namespace Registry

variable {r : Registry} {id : String} {j : Job} {files : FileSystem} {found : List Artifact}
  {os : List Timed}

theorem of_findArtifacts (h : r.findArtifacts files id = .ok found) :
    ∃ j, r.get? id = some j ∧ (found ≠ [] → j.status.isTerminal = true) ∧
      (j.status.isTerminal = true → found = (Resolved.resolve files j).map (·.artifact)) := by
  unfold findArtifacts at h
  split at h
  · cases h
  next j hj =>
    obtain rfl := Except.ok.inj h
    refine ⟨j, hj, fun hn => ?_, fun ht => if_pos ht⟩
    by_contra ht
    exact hn (if_neg ht)

theorem findArtifacts_of_running (hj : r.get? id = some j) (ht : j.status.isTerminal = false)
    (files : FileSystem) : r.findArtifacts files id = .ok [] := by
  simp [findArtifacts, hj, ht]

end Registry

namespace Handling

variable {h : Handling} {r : Registry} {files : FileSystem} {f : Finding}

theorem finding?_take (hf : (h.take r).phase.finding? = some f) : h.phase.finding? = some f := by
  unfold take at hf
  split at hf
  next hp _ =>
    split at hf <;> cases hf
  next => exact hf

theorem finding?_finish (hf : h.finish.phase.finding? = some f) : h.phase.finding? = some f := by
  unfold finish at hf
  split at hf
  · cases hf
  · exact hf

theorem finding?_look (hf : (h.look r files).phase.finding? = some f) :
    h.phase.finding? = some f ∨
      f.artifacts ≠ [] ∧ r.findArtifacts files f.jobId = .ok f.artifacts := by
  unfold look at hf
  split at hf
  next id _ =>
    split at hf
    · cases hf
    · cases hf
    next found hne hr =>
      obtain rfl : Finding.mk id found = f := Option.some.inj hf
      exact .inr ⟨fun he => hne he, hr⟩
  next => exact .inl hf

end Handling

namespace Depot

variable {d : Depot} {a : Act} {as as' : List Act} {f : Finding} {id : String}

theorem of_mem_sought {announced : Bool} {files : FileSystem}
    (h : f ∈ d.sought id announced files) :
    f.artifacts ≠ [] ∧ d.registry.findArtifacts files f.jobId = .ok f.artifacts := by
  unfold sought at h
  split at h
  · cases h
  next found hr =>
    split at h
    next hc =>
      obtain rfl := List.mem_singleton.mp h
      refine ⟨?_, hr⟩
      simpa using (Bool.and_eq_true_iff.mp hc).2
    next => cases h

theorem mem_underway_act (hf : f ∈ (d.act a).underway) :
    f ∈ d.underway ∨ f.artifacts ≠ [] ∧
      ∃ files, d.registry.findArtifacts files f.jobId = .ok f.artifacts := by
  rcases List.mem_append.mp hf with hf | hf
  · cases a with
    | ask id announced files =>
      rcases List.mem_append.mp hf with hf | hf
      · exact .inl (List.mem_append_left _ hf)
      · obtain ⟨hne, hr⟩ := of_mem_sought hf
        exact .inr ⟨hne, files, hr⟩
    | tell k now => exact .inl (List.mem_append_left _ (List.mem_of_mem_eraseIdx hf))
    | _ => exact .inl (List.mem_append_left _ hf)
  · have stays (hf : d.finding? = some f) : f ∈ d.underway :=
      List.mem_append_right _ (Option.mem_toList.mpr hf)
    obtain ⟨h', hh', hf⟩ := Option.bind_eq_some_iff.mp (Option.mem_toList.mp hf)
    cases hh : d.handling with
    | none =>
      cases a <;> simp [act, hh] at hh'
      subst hh'
      cases hf
    | some h =>
      have of_finding (hf : h.phase.finding? = some f) : f ∈ d.underway :=
        stays (by rw [finding?, hh]; exact hf)
      cases a with
      | take =>
        obtain rfl : h.take d.registry = h' := by simpa [act, hh] using hh'
        exact .inl (of_finding (Handling.finding?_take hf))
      | look files =>
        obtain rfl : h.look d.registry files = h' := by simpa [act, hh] using hh'
        rcases Handling.finding?_look hf with hf | ⟨hne, hr⟩
        · exact .inl (of_finding hf)
        · exact .inr ⟨hne, files, hr⟩
      | finish now =>
        obtain rfl : h.finish = h' := by simpa [act, hh] using hh'
        exact .inl (of_finding (Handling.finding?_finish hf))
      | _ =>
        obtain rfl : h = h' := by simpa [act, hh] using hh'
        exact .inl (of_finding hf)

/-! ## What acts ask of the registry -/

theorem of_announcing {now : Timestamp} {g : Option Finding} {o : Timed}
    (ho : announcing now g = some o) :
    ∃ f, g = some f ∧ o = ⟨now, .announce f.jobId f.artifacts⟩ := by
  obtain ⟨f, hf, rfl⟩ := Option.map_eq_some_iff.mp ho
  exact ⟨f, hf, rfl⟩

theorem isDirect_op? {o : Timed} (ho : d.op? a = some o) : o.op.isDirect = false := by
  cases a with
  | operate =>
    obtain ⟨ha, ⟨⟩⟩ := Option.ite_none_right_eq_some.mp ho
    cases hop : o.op with
    | change id c => simp [hop, allows] at ha
    | _ => rfl
  | tell k now | finish now =>
    obtain ⟨f, -, rfl⟩ := of_announcing ho
    rfl
  | attach =>
    obtain ⟨-, ⟨⟩⟩ := Option.ite_none_right_eq_some.mp ho
    rfl
  | take =>
    simp only [op?] at ho
    split at ho
    · exact Option.some.inj ho ▸ rfl
    · cases ho
  | ask | look => cases ho

theorem isDirect_history (d : Depot) (as : List Act) :
    ∀ o ∈ d.history as, o.op.isDirect = false := by
  induction as generalizing d with
  | nil => exact List.forall_mem_nil _
  | cons a as ih =>
    exact List.forall_mem_append.mpr
      ⟨fun o ho => isDirect_op? (Option.mem_toList.mp ho), ih (d.act a)⟩

/-- Only what is underway is announced, unless a list is announced that no search has found. -/
theorem mem_underway_of_announce {now : Timestamp} {artifacts : List Artifact}
    (ha : a.isUnsought = false) (ho : d.op? a = some ⟨now, .announce id artifacts⟩) :
    ⟨id, artifacts⟩ ∈ d.underway := by
  have found {now' : Timestamp} {g : Option Finding}
      (ho : announcing now' g = some ⟨now, .announce id artifacts⟩) : g = some ⟨id, artifacts⟩ := by
    obtain ⟨f, hf, he⟩ := of_announcing ho
    obtain ⟨rfl, rfl⟩ := Operation.announce.inj (congrArg Timed.op he)
    exact hf
  cases a with
  | operate =>
    obtain ⟨-, ⟨⟩⟩ := Option.ite_none_right_eq_some.mp ho
    cases ha
  | tell k now => exact List.mem_append_left _ (List.mem_of_getElem? (found ho))
  | finish now => exact List.mem_append_right _ (Option.mem_toList.mpr (found ho))
  | attach =>
    obtain ⟨-, he⟩ := Option.ite_none_right_eq_some.mp ho
    cases he
  | take =>
    simp only [op?] at ho
    split at ho <;> cases ho
  | ask | look => cases ho

/-! ## Reachable depots -/

section Reachable

variable {c : JobsConfig} {r₀ : Registry}

theorem registry_start_run (r₀ : Registry) (as : List Act) :
    ((start r₀).run as).registry = r₀.runAll ((start r₀).history as) :=
  registry_run ..

/-- A job that is at its end has been said to be finished, and stays as it is but for its metadata.
-/
theorem rests_of_ended (h : Registry.new c = some r₀) (as as' : List Act) {j : Job}
    (hj : ((start r₀).run as).registry.get? id = some j) (ht : j.status.isTerminal = true) :
    (∃ e ∈ (start r₀).published id as, e.isFinished = true) ∧
      ∃ m, (((start r₀).run as).run as').registry.get? id = some { j with metadata := m } := by
  rw [registry_start_run] at hj
  obtain ⟨he, hrest⟩ := Registry.rests_of_isTerminal h (isDirect_history _ as) hj ht
  obtain ⟨m, hm⟩ := hrest _ (isDirect_history ((start r₀).run as) as')
  rw [registry_run, registry_start_run]
  exact ⟨he, m, hm⟩

theorem ended_run (h : Registry.new c = some r₀) (as as' : List Act)
    (he : ((start r₀).run as).registry.Ended id) :
    (((start r₀).run as).run as').registry.Ended id := by
  obtain ⟨j, hj, ht⟩ := he
  obtain ⟨-, m, hm⟩ := rests_of_ended h as as' hj ht
  exact ⟨_, hm, ht⟩

/-- Whatever is still to be announced is not empty, and its job is at its end. -/
theorem underway_run (h : Registry.new c = some r₀) (as : List Act) :
    ∀ f ∈ ((start r₀).run as).underway,
      f.artifacts ≠ [] ∧ ((start r₀).run as).registry.Ended f.jobId := by
  induction as using List.reverseRecOn with
  | nil => exact List.forall_mem_nil _
  | append_singleton as a ih =>
    intro f hf
    have hrun : (start r₀).run (as ++ [a]) = ((start r₀).run as).act a := run_append ..
    rw [hrun] at hf ⊢
    rcases mem_underway_act hf with hf | ⟨hne, files, hr⟩
    · obtain ⟨hne, he⟩ := ih f hf
      exact ⟨hne, ended_run h as [a] he⟩
    · obtain ⟨j, hj, ht, -⟩ := Registry.of_findArtifacts hr
      exact ⟨hne, ended_run h as [a] ⟨j, hj, ht hne⟩⟩

end Reachable

end Depot

end JobConsole
