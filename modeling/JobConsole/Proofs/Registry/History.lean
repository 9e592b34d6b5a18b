import JobConsole.Proofs.Bus.Delivery
import JobConsole.Proofs.Registry.Change
import JobConsole.Registry.Artifacts

/-! # Histories of a registry

What can happen to a registry, one operation at a time: what its clients ask for, what the holders of
subscriptions do, the steps of its tasks, and changes of jobs made directly. Every operation affects
the bus through acts of the bus alone, so the events that a run publishes are those of its acts.
-/

namespace JobConsole

inductive Operation where
  | submit (command : List String) (options : JobOptions) (fresh : String)
  | watch (id : String)
  | subscribe (id : String)
  | subscribeAll
  | merge (id : String) (part : Metadata)
  | stage (id stage : String) (detail : Option Json)
  | acceptFile (id fileName : String) (size : Nat) (path : Option String)
  | announce (id : String) (artifacts : List Artifact)
  /-- A change that no task makes. -/
  | change (id : String) (c : Change)
  | step (id : String) (a : Action)
  | use (s : Nat) (u : Bus.Use)

/-- The operation changes a job other than through its task; clients are not offered it. -/
def Operation.isDirect : Operation → Bool
  | .change .. => true
  | _ => false

def Operation.Keeps (s : Nat) (o : Operation) : Prop := ∀ u, o = .use s u → u = .receive

structure Timed where
  now : Timestamp
  op : Operation

namespace Registry

/-- What an operation that can be refused comes to. -/
def orSelf {ε : Type} (r : Registry) : Except ε Registry → Registry
  | .ok r' => r'
  | .error _ => r

def apply (r : Registry) (now : Timestamp) : Operation → Registry
  | .submit command options fresh => r.orSelf ((r.submit command options fresh now).map (·.2))
  | .watch id => r.orSelf ((r.watch id).map (·.2.2))
  | .subscribe id => r.orSelf ((r.subscribe id).map (·.2))
  | .subscribeAll => r.subscribeAll.2
  | .merge id part => r.orSelf ((r.mergeMetadata id part).map (·.2))
  | .stage id stage detail => r.orSelf (r.publishStage id stage detail now)
  | .acceptFile id fileName size path => r.orSelf (r.publishFileAccepted id fileName size path now)
  | .announce id artifacts => r.orSelf (r.announce id artifacts now)
  | .change id c => r.change id c now
  | .step id a => (r.step id a now).getD r
  | .use s u => { r with bus := r.bus.use s u }

def runAll (r : Registry) : List Timed → Registry
  | [] => r
  | o :: os => (r.apply o.now o.op).runAll os

/-! ## Effects on the bus -/

def changeOfStep (r : Registry) (id : String) (a : Action) : Option Change :=
  match r.task? id with
  | none => none
  | some t => (t.stage.react (r.launchSpec? id) a).bind (·.2)

def ifKnown (r : Registry) (id : String) (a : Bus.Act) : List Bus.Act :=
  if (r.get? id).isSome then [a] else []

def publishing : Option Event → List Bus.Act
  | none => []
  | some e => [.publish e]

def busActs (r : Registry) (now : Timestamp) : Operation → List Bus.Act
  | .submit command options fresh =>
    match r.submit command options fresh now with
    | .ok (j, _) => [.publish (.queued j now)]
    | .error _ => []
  | .watch id => r.ifKnown id (.subscribe id)
  | .subscribe id => [.subscribe id]
  | .subscribeAll => [.subscribeAll]
  | .merge .. => []
  | .stage id stage detail => r.ifKnown id (.publish ⟨id, now, .stage stage detail⟩)
  | .acceptFile id fileName size path =>
    r.ifKnown id (.publish ⟨id, now, .fileAccepted fileName size path⟩)
  | .announce id artifacts => r.ifKnown id (.publish ⟨id, now, .artifactReady artifacts⟩)
  | .change id c => publishing (r.announcement id c now)
  | .step id a => publishing ((r.changeOfStep id a).bind (r.announcement id · now))
  | .use s u => [.use s u]

def busHistory (r : Registry) : List Timed → List Bus.Act
  | [] => []
  | o :: os => r.busActs o.now o.op ++ (r.apply o.now o.op).busHistory os

def eventsOf (id : String) (as : List Bus.Act) : List Event :=
  (as.flatMap Bus.Act.events).filter (·.jobId = id)

def published (r : Registry) (id : String) (os : List Timed) : List Event :=
  eventsOf id (r.busHistory os)

variable {r r' : Registry} {id k : String} {j j' : Job} {c : Change} {now : Timestamp}
  {o : Operation} {os : List Timed} {p : Payload} {t : Task}

/-! ## Entering and leaving -/

section Enroll

variable {command : List String} {options : JobOptions} {i : String}

theorem get?_enroll (h : r.get? id = some j) :
    (r.enroll i command options now).2.get? id = some j := by
  simp only [get?, enroll, List.find?_append] at h ⊢
  rw [h, Option.some_or]

theorem get?_enroll_self (h : r.get? id = none) :
    (r.enroll id command options now).2.get? id = some (r.enroll id command options now).1 := by
  simp only [get?, enroll, List.find?_append] at h ⊢
  simp [h, Job.new]

theorem get?_enroll_of_ne (hi : i ≠ id) :
    (r.enroll i command options now).2.get? id = r.get? id := by
  simp [get?, enroll, List.find?_append, Job.new, hi]

theorem task?_enroll (h : r.task? id = some t) :
    (r.enroll i command options now).2.task? id = some t := by
  simp only [task?, enroll, List.find?_append] at h ⊢
  rw [h, Option.some_or]

theorem task?_enroll_self (h : r.task? id = none) :
    (r.enroll id command options now).2.task? id = some (.new id r.takeSlot.1) := by
  simp only [task?, enroll, List.find?_append] at h ⊢
  simp [h, Task.new]

theorem task?_enroll_of_ne (hi : i ≠ id) :
    (r.enroll i command options now).2.task? id = r.task? id := by
  simp [task?, enroll, List.find?_append, Task.new, hi]

end Enroll

theorem get?_release (r : Registry) (t : Task) (k : String) : (r.release t).get? k = r.get? k := by
  unfold release
  split <;> rfl

/-! ## What an operation can do -/

def announced (j : Job) (artifacts : List Artifact) : Job :=
  { j with metadata :=
      j.metadata.merge (Dict.empty.insert Metadata.artifactsKey (.array (artifacts.map Artifact.toJson))) }

/-- What an operation makes of a registry, and what it does to the bus. -/
inductive Effect (r : Registry) (now : Timestamp) :
    Operation → Registry → List Bus.Act → Prop where
  | refused {o : Operation} : Effect r now o r []
  | submitted {command : List String} {options : JobOptions} {fresh id : String}
      (hc : checkCommand command = .ok ()) (hi : chooseId options fresh = .ok id)
      (hn : r.get? id = none) :
      Effect r now (.submit command options fresh) (r.enroll id command options now).2
        [.publish (.queued (r.enroll id command options now).1 now)]
  | subscribed {o : Operation} {id : String} (ho : o = .watch id ∨ o = .subscribe id) :
      Effect r now o { r with bus := r.bus.act (.subscribe id) } [.subscribe id]
  | subscribedAll :
      Effect r now .subscribeAll { r with bus := r.bus.act .subscribeAll } [.subscribeAll]
  | merged {id : String} {part : Metadata} {j : Job} (hj : r.get? id = some j) :
      Effect r now (.merge id part) (r.setJob { j with metadata := j.metadata.merge part }) []
  | told {o : Operation} {id : String} {p : Payload} {j : Job} (hj : r.get? id = some j)
      (hp : p.kind = .stage ∨ p.kind = .fileAccepted) :
      Effect r now o (r.publish ⟨id, now, p⟩) [.publish ⟨id, now, p⟩]
  | announced {id : String} {artifacts : List Artifact} {j : Job} (hj : r.get? id = some j) :
      Effect r now (.announce id artifacts)
        ((r.setJob (Registry.announced j artifacts)).publish ⟨id, now, .artifactReady artifacts⟩)
        [.publish ⟨id, now, .artifactReady artifacts⟩]
  | changed {id : String} {c : Change} :
      Effect r now (.change id c) (r.change id c now) (publishing (r.announcement id c now))
  | acquired {id : String} {t : Task} {n : Nat} (ht : r.task? id = some t)
      (hs : t.stage = .waiting) (hf : r.freeSlots = some (n + 1)) :
      Effect r now (.step id .acquire)
        ({ r with freeSlots := some n }.setTask ⟨id, .held, .ready⟩) []
  | left {id : String} {t : Task} (ht : r.task? id = some t) (hs : t.stage = .finished) :
      Effect r now (.step id .leave) (r.release t) []
  | moved {id : String} {a : Action} {t : Task} {stage : Stage} {c : Option Change}
      (ht : r.task? id = some t) (hs : t.stage.react (r.launchSpec? id) a = some (stage, c)) :
      Effect r now (.step id a) ((r.changeIf id c now).setStage t stage)
        (publishing (c.bind (r.announcement id · now)))
  | used {s : Nat} {u : Bus.Use} :
      Effect r now (.use s u) { r with bus := r.bus.use s u } [.use s u]

theorem chooseId_of_submit {command : List String} {options : JobOptions} {fresh : String}
    (h : r.submit command options fresh now = .ok (j, r')) :
    ∃ id, checkCommand command = .ok () ∧ chooseId options fresh = .ok id ∧ r.get? id = none ∧
      (j, r') = r.enroll id command options now := by
  unfold submit at h
  split at h
  · cases h
  next hc =>
    split at h
    · cases h
    next id hi =>
      split at h
      · cases h
      next hn => exact ⟨id, hc, hi, by simpa using hn, (Except.ok.inj h).symm⟩

theorem effect_step (r : Registry) (id : String) (a : Action) (now : Timestamp) :
    Effect r now (.step id a) (r.apply now (.step id a)) (r.busActs now (.step id a)) := by
  simp only [apply, busActs, step, changeOfStep]
  cases ht : r.task? id with
  | none => exact .refused
  | some t =>
    obtain rfl := jobId_of_task? ht
    simp only [stepTask]
    split
    next hs =>
      split
      next n hf => simpa [hs, Stage.react, publishing] using Effect.acquired ht hs hf
      next => simpa [hs, Stage.react, publishing] using Effect.refused
    next hs => simpa [hs, Stage.react, publishing] using Effect.left ht hs
    next =>
      split
      next stage c hs => simpa [hs] using Effect.moved ht hs
      next hs => simpa [hs, publishing] using Effect.refused

theorem effect (r : Registry) (now : Timestamp) (o : Operation) :
    Effect r now o (r.apply now o) (r.busActs now o) := by
  cases o with
  | submit command options fresh =>
    simp only [apply, busActs]
    cases h : r.submit command options fresh now with
    | error e => exact .refused
    | ok x =>
      obtain ⟨j, r'⟩ := x
      obtain ⟨id, hc, hi, hn, he⟩ := chooseId_of_submit h
      have : Effect r now (.submit command options fresh) _ _ := .submitted hc hi hn
      rw [← he] at this
      exact this
  | watch id =>
    simp only [apply, busActs, watch, ifKnown]
    cases hj : r.get? id with
    | none => exact .refused
    | some j =>
      have : Effect r now (.watch id) _ _ := .subscribed (.inl rfl)
      cases hb : r.bus.subscribe id <;> simp only [Bus.act, hb] at this <;> exact this
  | subscribe id =>
    have : Effect r now (.subscribe id) _ _ := .subscribed (.inr rfl)
    simp only [apply, busActs, subscribe]
    cases hb : r.bus.subscribe id <;> simp only [Bus.act, hb] at this <;> exact this
  | subscribeAll => exact .subscribedAll
  | merge id part =>
    simp only [apply, busActs, mergeMetadata]
    cases hj : r.get? id with
    | none => exact .refused
    | some j => exact .merged hj
  | stage id stage detail =>
    simp only [apply, busActs, publishStage, publishFor, ifKnown]
    cases hj : r.get? id with
    | none => exact .refused
    | some j => exact .told hj (.inl rfl)
  | acceptFile id fileName size path =>
    simp only [apply, busActs, publishFileAccepted, publishFor, ifKnown]
    cases hj : r.get? id with
    | none => exact .refused
    | some j => exact .told hj (.inr rfl)
  | announce id artifacts =>
    simp only [apply, busActs, announce, ifKnown]
    cases hj : r.get? id with
    | none => exact .refused
    | some j => exact .announced hj
  | change id c => exact .changed
  | step id a => exact effect_step r id a now
  | use s u => exact .used

/-! ## The settings along a run -/

theorem settings_change (r : Registry) (id : String) (c : Change) (now : Timestamp) :
    (r.change id c now).workingDir = r.workingDir ∧
      (r.change id c now).logCapacity = r.logCapacity := by
  rcases change_cases r id c now with ⟨hr, -, -⟩ | ⟨j, j', p, -, -, hr, -⟩ <;> rw [hr] <;>
    exact ⟨rfl, rfl⟩

theorem Effect.settings_eq {as : List Bus.Act} (h : Effect r now o r' as) :
    r'.workingDir = r.workingDir ∧ r'.logCapacity = r.logCapacity := by
  cases h with
  | changed => exact settings_change ..
  | left =>
    unfold release
    split <;> exact ⟨rfl, rfl⟩
  | @moved id a t stage c ht hs =>
    cases c with
    | none => exact ⟨rfl, rfl⟩
    | some c => exact settings_change ..
  | _ => exact ⟨rfl, rfl⟩

theorem settings_runAll {c : JobsConfig} (h : Registry.new c = some r) (os : List Timed) :
    (r.runAll os).workingDir = c.workingDir ∧ (r.runAll os).logCapacity = c.logCapacity := by
  have hnew : r.workingDir = c.workingDir ∧ r.logCapacity = c.logCapacity := eq_of_new h ▸ ⟨rfl, rfl⟩
  rw [← hnew.1, ← hnew.2]
  clear h hnew
  induction os generalizing r with
  | nil => exact ⟨rfl, rfl⟩
  | cons o os ih =>
    obtain ⟨hdir, hcapacity⟩ := (effect r o.now o.op).settings_eq
    exact ⟨ih.1.trans hdir, ih.2.trans hcapacity⟩

/-! ## The bus along a run -/

theorem bus_change (r : Registry) (id : String) (c : Change) (now : Timestamp) :
    (r.change id c now).bus = r.bus.acts (publishing (r.announcement id c now)) := by
  rcases change_cases r id c now with ⟨hr, ha, -⟩ | ⟨j, j', p, _, _, hr, ha⟩ <;> rw [hr, ha] <;> rfl

theorem bus_changeIf (r : Registry) (id : String) (c : Option Change) (now : Timestamp) :
    (r.changeIf id c now).bus = r.bus.acts (publishing (c.bind (r.announcement id · now))) := by
  cases c with
  | none => rfl
  | some c => exact bus_change r id c now

theorem bus_release (r : Registry) (t : Task) : (r.release t).bus = r.bus := by
  unfold release
  split <;> rfl

theorem Effect.bus_eq {as : List Bus.Act} (h : Effect r now o r' as) : r'.bus = r.bus.acts as := by
  cases h with
  | changed => exact bus_change ..
  | left => exact bus_release ..
  | moved => exact bus_changeIf ..
  | _ => rfl

theorem bus_apply (r : Registry) (now : Timestamp) (o : Operation) :
    (r.apply now o).bus = r.bus.acts (r.busActs now o) :=
  (effect r now o).bus_eq

theorem bus_runAll (r : Registry) (os : List Timed) :
    (r.runAll os).bus = r.bus.acts (r.busHistory os) := by
  induction os generalizing r with
  | nil => rfl
  | cons o os ih => rw [runAll, ih, bus_apply, busHistory, Bus.acts_append]

theorem runAll_append (r : Registry) (os os' : List Timed) :
    r.runAll (os ++ os') = (r.runAll os).runAll os' := by
  induction os generalizing r with
  | nil => rfl
  | cons o os ih => exact ih _

theorem eventsOf_append (id : String) (as as' : List Bus.Act) :
    eventsOf id (as ++ as') = eventsOf id as ++ eventsOf id as' := by
  simp only [eventsOf, List.flatMap_append, List.filter_append]

theorem eventsOf_publish_self (id : String) (now : Timestamp) (p : Payload) :
    eventsOf id [.publish ⟨id, now, p⟩] = [⟨id, now, p⟩] := by
  simp [eventsOf, Bus.Act.events]

theorem eventsOf_publish_of_ne {e : Event} (h : e.jobId ≠ id) : eventsOf id [.publish e] = [] := by
  simp [eventsOf, Bus.Act.events, h]

theorem eventsOf_changeIf_of_ne {i : String} (c : Option Change) (h : i ≠ id) :
    eventsOf id (publishing (c.bind (r.announcement i · now))) = [] := by
  cases he : c.bind (r.announcement i · now) with
  | none => rfl
  | some e =>
    obtain ⟨c, -, hc⟩ := Option.bind_eq_some_iff.mp he
    exact eventsOf_publish_of_ne (jobId_of_announcement hc ▸ h)

@[simp] theorem published_nil (r : Registry) (id : String) : r.published id [] = [] := rfl

theorem published_cons (r : Registry) (id : String) (o : Timed) (os : List Timed) :
    r.published id (o :: os) =
      eventsOf id (r.busActs o.now o.op) ++ (r.apply o.now o.op).published id os :=
  eventsOf_append ..

theorem busHistory_append (r : Registry) (os os' : List Timed) :
    r.busHistory (os ++ os') = r.busHistory os ++ (r.runAll os).busHistory os' := by
  induction os generalizing r with
  | nil => rfl
  | cons o os ih => rw [List.cons_append, busHistory, ih, busHistory, List.append_assoc, runAll]

theorem published_append (r : Registry) (id : String) (os os' : List Timed) :
    r.published id (os ++ os') = r.published id os ++ (r.runAll os).published id os' := by
  rw [published, busHistory_append, eventsOf_append]
  rfl

theorem bus_new {c : JobsConfig} (h : Registry.new c = some r) : r.bus = .new c.maxSubscribers :=
  eq_of_new h ▸ rfl

theorem wellFormed_bus {c : JobsConfig} (h : Registry.new c = some r) (os : List Timed) :
    (r.runAll os).bus.WellFormed := by
  rw [bus_runAll, bus_new h]
  exact (Bus.wellFormed_new _).acts _

theorem eq_publish_of_mem {e : Option Event} {a : Bus.Act} (h : a ∈ publishing e) :
    ∃ e, a = .publish e := by
  cases e with
  | none => cases h
  | some e => exact ⟨e, List.mem_singleton.mp h⟩

theorem changed_of_mem_publishing {c : Option Change} {e : Event}
    (he : e ∈ (publishing (c.bind (r.announcement id · now))).flatMap Bus.Act.events) :
    ∃ j c' j', Changed j now c' j' e.payload := by
  cases ha : c.bind (r.announcement id · now) with
  | none => simp [ha, publishing] at he
  | some e' =>
    obtain rfl : e = e' := by simpa [ha, publishing, Bus.Act.events] using he
    obtain ⟨c', -, hc⟩ := Option.bind_eq_some_iff.mp ha
    rcases change_cases r id c' now with ⟨-, hn, -⟩ | ⟨j, j', p, -, hc', -, hp⟩
    · cases hn.symm.trans hc
    · obtain rfl := Option.some.inj (hp.symm.trans hc)
      exact ⟨j, c', j', hc'⟩

/-- Only using a handle uses a handle, and nothing cuts the bus off. -/
theorem Effect.of_mem {as : List Bus.Act} {a : Bus.Act} (h : Effect r now o r' as) (ha : a ∈ as) :
    a.isShutDown = false ∧ ∀ s u, a = .use s u → o = .use s u := by
  have hp {e : Option Event} (h : a ∈ publishing e) :
      a.isShutDown = false ∧ ∀ s u, a = .use s u → o = .use s u := by
    obtain ⟨e, rfl⟩ := eq_publish_of_mem h
    exact ⟨rfl, fun _ _ h => by cases h⟩
  cases h with
  | changed | moved => exact hp ha
  | refused | merged | acquired | left => cases ha
  | used =>
    cases List.mem_singleton.mp ha
    exact ⟨rfl, fun _ _ h => by cases h; rfl⟩
  | _ =>
    cases List.mem_singleton.mp ha
    exact ⟨rfl, fun _ _ h => by cases h⟩

theorem Effect.length_le {as : List Bus.Act} (h : Effect r now o r' as) : as.length ≤ 1 := by
  have hp (e : Option Event) : (publishing e).length ≤ 1 := by
    cases e with
    | none => exact Nat.zero_le 1
    | some e => exact Nat.le_refl 1
  cases h with
  | changed | moved => exact hp _
  | refused | merged | acquired | left => exact Nat.zero_le 1
  | _ => exact Nat.le_refl 1

theorem keeps_busHistory {s : Nat} (h : ∀ o ∈ os, o.op.Keeps s) :
    ∀ a ∈ r.busHistory os, a.Keeps s ∧ a.isShutDown = false := by
  induction os generalizing r with
  | nil => exact List.forall_mem_nil _
  | cons o os ih =>
    obtain ⟨ho, hos⟩ := List.forall_mem_cons.mp h
    intro a ha
    rcases List.mem_append.mp ha with ha | ha
    · obtain ⟨hs, hu⟩ := (effect r o.now o.op).of_mem ha
      exact ⟨fun u h => ho u (hu s u h), hs⟩
    · exact ih hos a ha

end Registry

end JobConsole
