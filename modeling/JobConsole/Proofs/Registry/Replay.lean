import JobConsole.Proofs.Job.Metadata
import JobConsole.Proofs.Registry.History

/-! # Snapshot and tail

An observer starts from a snapshot of a job and plays the later events of the job back on it. Whatever
happens in between, the outcome is the record that the registry holds, up to the moments of changes
and to metadata that was merged without an event. So all observers of a job come to the same record.
-/

namespace JobConsole

def LogEntry.untimed (e : LogEntry) : LogEntry := { e with timestamp := default }

namespace Log

def untimed (l : Log) : Log := { l with entries := l.entries.map LogEntry.untimed }

@[simp] theorem untimed_untimed (l : Log) : l.untimed.untimed = l.untimed := by
  have hu : LogEntry.untimed ∘ LogEntry.untimed = LogEntry.untimed := rfl
  simp only [untimed, List.map_map, hu]

theorem untimed_push (l : Log) (e : LogEntry) : (l.push e).untimed = (l.untimed.push e).untimed := by
  have hu : LogEntry.untimed ∘ LogEntry.untimed = LogEntry.untimed := rfl
  simp [untimed, push, isFull, List.map_drop, hu]

end Log

namespace Job

/-- The copy of a job that an observer keeps, after one more event about it. -/
def replay (j : Job) (e : Event) : Job :=
  match e.payload with
  | .started pid => { j with status := .running, pid := pid, awaitingSlot := false }
  | .log entry => j.pushLog entry
  | .error message => j.pushLog ⟨.error, message, e.timestamp⟩
  | .finished status exitCode signal error =>
    { j with status := status, exitCode := exitCode, signal := signal, error := error }
  | .artifactReady artifacts =>
    { j with metadata :=
        j.metadata.insert Metadata.artifactsKey (.array (artifacts.map Artifact.toJson)) }
  | .queued .. | .stage .. | .fileAccepted .. => j

def replays (j : Job) (es : List Event) : Job := es.foldl replay j

/-- A job without its metadata and without the moments at which it changed. -/
def bare (j : Job) : Job :=
  { j with startedAt := none, completedAt := none, log := j.log.untimed, metadata := .empty }

/-- The jobs are the same up to the moments of changes and to some keys of the metadata. -/
structure Agrees (keys : List String) (j k : Job) : Prop where
  bare_eq : j.bare = k.bare
  metadata_eq : ∀ key ∉ keys, j.metadata.get? key = k.metadata.get? key

variable {i j k : Job} {keys keys' : List String}

theorem Agrees.refl (keys : List String) (j : Job) : j.Agrees keys j := ⟨rfl, fun _ _ => rfl⟩

theorem Agrees.symm (h : j.Agrees keys k) : k.Agrees keys j :=
  ⟨h.bare_eq.symm, fun key hn => (h.metadata_eq key hn).symm⟩

theorem Agrees.trans (h : i.Agrees keys j) (h' : j.Agrees keys k) : i.Agrees keys k :=
  ⟨h.bare_eq.trans h'.bare_eq, fun key hn => (h.metadata_eq key hn).trans (h'.metadata_eq key hn)⟩

theorem Agrees.mono (h : j.Agrees keys k) (hs : keys ⊆ keys') : j.Agrees keys' k :=
  ⟨h.bare_eq, fun key hn => h.metadata_eq key (mt (@hs key) hn)⟩

theorem bare_pushLog (j : Job) (e : LogEntry) : (j.pushLog e).bare = (j.bare.pushLog e).bare := by
  unfold bare pushLog
  rw [Log.untimed_push]

theorem bare_replay (j : Job) (e : Event) : (j.replay e).bare = (j.bare.replay e).bare := by
  unfold replay
  cases e.payload with
  | log entry => exact bare_pushLog j entry
  | error message => exact bare_pushLog j _
  | _ => simp only [bare, Log.untimed_untimed]

theorem Agrees.replay (h : j.Agrees keys k) (e : Event) : (j.replay e).Agrees keys (k.replay e) := by
  constructor
  · rw [bare_replay, h.bare_eq, ← bare_replay]
  · intro key hn
    have := h.metadata_eq key hn
    unfold Job.replay
    cases e.payload with
    | artifactReady artifacts => simp only [Dict.get?_insert, this]
    | _ => exact this

theorem Agrees.replays (h : j.Agrees keys k) (es : List Event) :
    (j.replays es).Agrees keys (k.replays es) := by
  induction es generalizing j k with
  | nil => exact h
  | cons e es ih => exact ih (h.replay e)

theorem replays_append (j : Job) (es es' : List Event) :
    j.replays (es ++ es') = (j.replays es).replays es' :=
  List.foldl_append

end Job

/-- The metadata keys of a job that an operation writes without an event. -/
def Operation.mergedKeys (id : String) : Operation → List String
  | .merge i part => if i = id then part.keys else []
  | _ => []

def mergedKeys (id : String) (os : List Timed) : List String := os.flatMap (·.op.mergedKeys id)

namespace Registry

variable {r r' : Registry} {id : String} {j j' k : Job} {now : Timestamp} {o : Operation}
  {os : List Timed} {as : List Bus.Act} {s : Nat}

/-! ## One operation -/

/-- What announces a change says all of it, up to the moment. -/
theorem agrees_of_changed {c : Change} {p : Payload} (h : Changed j now c j' p) :
    (j.replay ⟨id, now, p⟩).Agrees [] j' := by
  cases h with
  | started _ => exact ⟨rfl, fun _ _ => rfl⟩
  | logged => exact .refl [] _
  | reported => exact .refl [] _
  | finished _ hj =>
    subst hj
    exact ⟨rfl, fun _ _ => rfl⟩

theorem replay_change (hj : r.get? id = some j) (i : String) (c : Change) (now : Timestamp) :
    ∃ k, (r.change i c now).get? id = some k ∧
      (j.replays (eventsOf id (publishing (r.announcement i c now)))).Agrees [] k := by
  rcases change_cases r i c now with ⟨hr, ha, -⟩ | ⟨l, j', p, hl, hc, hr, ha⟩
  · rw [hr, ha]
    exact ⟨j, hj, .refl [] j⟩
  · rw [hr, ha, get?_publish]
    by_cases hi : i = id
    · subst hi
      obtain rfl := Option.some.inj (hj.symm.trans hl)
      refine ⟨j', get?_setJob_self hj (hc.id_eq.trans (id_of_get? hj)), ?_⟩
      rw [publishing, eventsOf_publish_self]
      exact agrees_of_changed hc
    · have hid : j'.id = i := hc.id_eq.trans (id_of_get? hl)
      refine ⟨j, (get?_setJob_of_ne hid (Ne.symm hi)).trans hj, ?_⟩
      rw [publishing, eventsOf_publish_of_ne hi]
      exact .refl [] j

theorem replay_changeIf (hj : r.get? id = some j) (i : String) (c : Option Change)
    (now : Timestamp) :
    ∃ k, (r.changeIf i c now).get? id = some k ∧
      (j.replays (eventsOf id (publishing (c.bind (r.announcement i · now))))).Agrees [] k := by
  cases c with
  | none => exact ⟨j, hj, .refl [] j⟩
  | some c => exact replay_change hj i c now

/-- One operation: playing back what it publishes about a job leads from the record before it to the
record after it. -/
theorem Effect.replay (h : Effect r now o r' as) (hj : r.get? id = some j) :
    ∃ k, r'.get? id = some k ∧ (j.replays (eventsOf id as)).Agrees (o.mergedKeys id) k := by
  cases h with
  | @submitted command options fresh i hc hi hn =>
    have hne : i ≠ id := fun h => by simp [← h, hn] at hj
    refine ⟨j, get?_enroll hj, ?_⟩
    rw [eventsOf_publish_of_ne hne]
    exact .refl _ j
  | @merged i part l hl =>
    by_cases hi : i = id
    · subst hi
      obtain rfl := Option.some.inj (hj.symm.trans hl)
      have hid : j.id = i := id_of_get? hj
      refine ⟨_, get?_setJob_self hj hid, rfl, fun key hn => ?_⟩
      rw [Operation.mergedKeys, if_pos rfl] at hn
      exact (Metadata.get?_merge_of_notMem j.metadata hn).symm
    · have hid : l.id = i := id_of_get? hl
      exact ⟨j, (get?_setJob_of_ne (by exact hid) (Ne.symm hi)).trans hj, .refl _ j⟩
  | @told o i p l hl hp =>
    refine ⟨j, hj, ?_⟩
    by_cases hi : i = id
    · subst hi
      rw [eventsOf_publish_self]
      cases p <;> simp [Payload.kind] at hp <;> exact .refl _ j
    · rw [eventsOf_publish_of_ne hi]
      exact .refl _ j
  | @announced i artifacts l hl =>
    by_cases hi : i = id
    · subst hi
      obtain rfl := Option.some.inj (hj.symm.trans hl)
      have hid : j.id = i := id_of_get? hj
      refine ⟨_, get?_setJob_self hj hid, ?_⟩
      rw [eventsOf_publish_self]
      exact .refl _ _
    · have hid : l.id = i := id_of_get? hl
      refine ⟨j, (get?_setJob_of_ne (by exact hid) (Ne.symm hi)).trans hj, ?_⟩
      rw [eventsOf_publish_of_ne hi]
      exact .refl _ j
  | @changed i c =>
    obtain ⟨k, hk, ha⟩ := replay_change hj i c now
    exact ⟨k, hk, ha.mono (List.nil_subset _)⟩
  | @left i t ht hs => exact ⟨j, (get?_release r t id).trans hj, .refl _ j⟩
  | @moved i a t stage c ht hs =>
    obtain ⟨k, hk, ha⟩ := replay_changeIf hj i c now
    exact ⟨k, hk, ha.mono (List.nil_subset _)⟩
  | _ => exact ⟨j, hj, .refl _ j⟩

/-! ## Many operations -/

theorem replay_published (hj : r.get? id = some j) (os : List Timed) :
    ∃ k, (r.runAll os).get? id = some k ∧
      (j.replays (r.published id os)).Agrees (mergedKeys id os) k := by
  induction os generalizing r j with
  | nil => exact ⟨j, hj, .refl [] j⟩
  | cons o os ih =>
    obtain ⟨k, hk, ha⟩ := (effect r o.now o.op).replay hj
    obtain ⟨l, hl, hb⟩ := ih hk
    refine ⟨l, hl, ?_⟩
    rw [published_cons, Job.replays_append]
    have ha' := (ha.mono (List.subset_append_left _ (mergedKeys id os))).replays
      ((r.apply o.now o.op).published id os)
    exact ha'.trans (hb.mono (List.subset_append_right _ _))

theorem eq_of_watch {r₁ : Registry} (now : Timestamp) (h : r.watch id = .ok (j, s, r₁)) :
    r.get? id = some j ∧ r.bus.subscribe id = .ok (s, r₁.bus) ∧
      r.apply now (.watch id) = r₁ ∧ r₁.get? id = some j := by
  have hr : r.apply now (.watch id) = r₁ := by rw [apply, h]; rfl
  unfold watch at h
  split at h
  · cases h
  next hj =>
    split at h
    · cases h
    next hb =>
      cases h
      exact ⟨hj, hb, hr, hj⟩

/-- What a subscription has been given during a run, read or still queued. -/
def delivered (r : Registry) (s : Nat) (os : List Timed) : List Event :=
  Bus.takenBy s r.bus (r.busHistory os) ++ (r.runAll os).bus.queueOf s

theorem delivered_watch {r₁ : Registry} (hr : r.bus.WellFormed)
    (hw : r.watch id = .ok (j, s, r₁)) (hk : ∀ o ∈ os, o.op.Keeps s) :
    r₁.delivered s os = r₁.published id os := by
  obtain ⟨-, hb, -, -⟩ := eq_of_watch default hw
  have hs := hr.receiver?_subscribe hb
  obtain ⟨q, hq, hq'⟩ := (hr.subscribe hb).delivery hs (keeps_busHistory (r := r₁) hk)
  rw [← bus_runAll] at hq'
  rw [delivered, Bus.queueOf_eq hq']
  exact hq

theorem replay_delivered {r₁ : Registry} (hr : r.bus.WellFormed)
    (hw : r.watch id = .ok (j, s, r₁)) (hk : ∀ o ∈ os, o.op.Keeps s) :
    ∃ k, (r₁.runAll os).get? id = some k ∧
      (j.replays (r₁.delivered s os)).Agrees (mergedKeys id os) k := by
  obtain ⟨-, -, -, hj⟩ := eq_of_watch default hw
  rw [delivered_watch hr hw hk]
  exact replay_published hj os

/-- A snapshot with the events delivered since is the record of the job, as long as the subscription
is held; and a watcher who joins later comes to the same record. -/
theorem snapshot_and_tail {c : JobsConfig} {r₀ r₁ : Registry} (h : Registry.new c = some r₀)
    (past os : List Timed) (hw : (r₀.runAll past).watch id = .ok (j, s, r₁))
    (hk : ∀ o ∈ os, o.op.Keeps s) :
    (∃ k, (r₁.runAll os).get? id = some k ∧
      (j.replays (r₁.delivered s os)).Agrees (mergedKeys id os) k) ∧
    ∀ mid late now j' s' r₂, os = mid ++ ⟨now, .watch id⟩ :: late →
      (r₁.runAll mid).watch id = .ok (j', s', r₂) → (∀ o ∈ late, o.op.Keeps s') →
      (j.replays (r₁.delivered s os)).Agrees (mergedKeys id os)
        (j'.replays (r₂.delivered s' late)) := by
  have hr := wellFormed_bus h past
  obtain ⟨k, hk', ha⟩ := replay_delivered hr hw hk
  refine ⟨⟨k, hk', ha⟩, ?_⟩
  rintro mid late now j' s' r₂ rfl hw' hl
  obtain ⟨-, hb, -, -⟩ := eq_of_watch now hw
  obtain ⟨-, -, hr₂, -⟩ := eq_of_watch now hw'
  have hr₁ : (r₁.runAll mid).bus.WellFormed := by
    rw [bus_runAll]
    exact (hr.subscribe hb).acts _
  obtain ⟨l, hl', hb'⟩ := replay_delivered hr₁ hw' hl
  rw [runAll_append, runAll, hr₂] at hk'
  obtain rfl := Option.some.inj (hk'.symm.trans hl')
  refine ha.trans (hb'.mono ?_).symm
  simp [mergedKeys, Operation.mergedKeys]

/-- A log that holds one line loses the first of two, in the record and in the copy alike. -/
theorem snapshot_and_tail_of_full_log :
    let os : List Timed :=
      [⟨default, .change "a" (.start (some 7))⟩, ⟨default, .change "a" (.log .stdout "one")⟩,
        ⟨default, .use 0 .receive⟩, ⟨default, .change "a" (.log .stderr "two")⟩,
        ⟨default, .merge "a" (Dict.empty.insert "kind" .null)⟩,
        ⟨default, .change "a" (.finish (some 0) none none)⟩]
    ∃ r₀ j r₁, Registry.new ⟨1, 1, 8, "/", "", ""⟩ = some r₀ ∧
      (r₀.runAll [⟨default, .submit ["true"] .none "a"⟩]).watch "a" = .ok (j, 0, r₁) ∧
      (∀ o ∈ os, o.op.Keeps 0) ∧
      ∃ k, (r₁.runAll os).get? "a" = some k ∧ k.log.truncated = true ∧ k.status = .succeeded ∧
        (j.replays (r₁.delivered 0 os)).Agrees ["kind"] k := by
  intro os
  have hk : ∀ o ∈ os, o.op.Keeps 0 := by
    simp only [os, List.forall_mem_cons, Operation.Keeps]
    simp
  obtain ⟨r₀, h, j, r₁, hw⟩ : ∃ r₀, Registry.new ⟨1, 1, 8, "/", "", ""⟩ = some r₀ ∧ ∃ j r₁,
      (r₀.runAll [⟨default, .submit ["true"] .none "a"⟩]).watch "a" = .ok (j, 0, r₁) :=
    ⟨_, rfl, _, _, rfl⟩
  obtain ⟨⟨k, hk', ha⟩, -⟩ := snapshot_and_tail h _ os hw hk
  refine ⟨r₀, j, r₁, h, hw, hk, k, hk', ?_, ?_, ha⟩
  all_goals
    cases h
    cases hw
    cases hk'
    rfl

end Registry

end JobConsole
