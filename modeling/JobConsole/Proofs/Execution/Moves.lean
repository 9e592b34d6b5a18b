import JobConsole.Proofs.Registry.History
import Mathlib.Data.List.Induction

/-! # One job and its task

What an operation can mean for one job and the task that carries it, however many others there are.
The task moves along its stages and changes the job on the way; every other operation leaves both as
they are, up to the metadata of the job, and publishes side events only.
-/

namespace JobConsole

/-- The steps of a task between its slot and its end, whatever they do to its pumps. -/
inductive Progress : Stage → Action → Stage → Option Change → Prop where
  | refused {outcome : Except String Nat} {reason : String} :
      Progress .ready (.launch outcome) (.reporting reason) (some (.start none))
  | launched {outcome : Except String Nat} {pid : Nat} :
      Progress .ready (.launch outcome) (.running (.new .stdout) (.new .stderr) none)
        (some (.start (some pid)))
  | reported {reason : String} :
      Progress (.reporting reason) .report (.failing reason) (some (.report reason))
  | failed {reason : String} :
      Progress (.failing reason) .fail .finished (some (.finish none none (some reason)))
  | worked {out err out' err' : Pump} {exit : Option WaitResult} {a : Action} :
      Progress (.running out err exit) a (.running out' err' exit) none
  | logged {out err out' err' : Pump} {exit : Option WaitResult} {a : Action} {s : Stream}
      {line : String} :
      Progress (.running out err exit) a (.running out' err' exit) (some (.log s line))
  | unread {out err out' err' : Pump} {exit : Option WaitResult} {s : Stream}
      {cause reason : String} :
      Progress (.running out err exit) (.failRead s cause) (.running out' err' exit)
        (some (.report reason))
  | exited {out err : Pump} {e : Exit} :
      Progress (.running out err none) (.exit e) (.running out err (some (.exited e))) none
  | lost {out err : Pump} {cause : String} :
      Progress (.running out err none) (.failWait cause) (.running out err (some (.failed cause)))
        none
  | ended {out err : Pump} {e : Exit} :
      Progress (.running out err (some (.exited e))) .finish .finished
        (some (.finish e.code e.signal none))
  | givenUp {out err : Pump} {cause reason : String} :
      Progress (.running out err (some (.failed cause))) .finish (.reporting reason) none

def Action.stream? : Action → Option Stream
  | read s _ | endOutput s | failRead s _ | pump s | abort s => some s
  | _ => none

def Action.isFault : Action → Bool
  | failRead .. | failWait _ => true
  | _ => false

namespace Pump

/-- A step of a pump changes its job by a line at most, unless reading fails. -/
theorem change_of_react {p p' : Pump} {exited : Bool} {a : Action} {c : Option Change}
    (h : p.react exited a = some (c, p')) :
    c = none ∨ (∃ line, c = some (.log p.stream line)) ∨
      ∃ s cause reason, a = .failRead s cause ∧ c = some (.report reason) := by
  have taken (h : p.change p.take.1 = c) : c = none ∨ (∃ line, c = some (.log p.stream line)) ∨
      ∃ s cause reason, a = .failRead s cause ∧ c = some (.report reason) := by
    subst h
    cases p.take.1 with
    | none => exact .inl rfl
    | some line => exact .inr (.inl ⟨line, rfl⟩)
  unfold react at h
  split at h
  next => cases h; exact .inl rfl
  next => cases h; exact .inl rfl
  next => cases h; exact .inr (.inr ⟨_, _, _, rfl, rfl⟩)
  next => exact taken (Prod.mk.inj (Option.some.inj h)).1
  next => exact taken (Prod.mk.inj (Option.some.inj h)).1
  next =>
    split at h
    · cases h; exact .inl rfl
    · cases h
  next => cases h

end Pump

namespace Stage

def pump? (s : Stream) : Stage → Option Pump
  | .running out err _ =>
    match s with
    | .stdout => some out
    | .stderr => some err
    | .error => none
  | _ => none

def setPump (s : Stream) (p : Pump) : Stage → Stage
  | .running out err exit =>
    match s with
    | .stdout => .running p err exit
    | .stderr => .running out p exit
    | .error => .running out err exit
  | stage => stage

/-- The steps of a task between its slot and its end, with what they do to its pumps. -/
inductive Reacts : Stage → Action → Stage → Option Change → Prop where
  | refused {reason : String} {outcome : Except String Nat} :
      Reacts .ready (.launch outcome) (.reporting reason) (some (.start none))
  | launched {pid : Nat} {outcome : Except String Nat} :
      Reacts .ready (.launch outcome) (.running (.new .stdout) (.new .stderr) none)
        (some (.start (some pid)))
  | reported {reason : String} :
      Reacts (.reporting reason) .report (.failing reason) (some (.report reason))
  | failed {reason : String} :
      Reacts (.failing reason) .fail .finished (some (.finish none none (some reason)))
  | pumped {out err p p' : Pump} {exit : Option WaitResult} {a : Action} {s : Stream}
      {c : Option Change} (ha : a.stream? = some s)
      (hp : (running out err exit).pump? s = some p)
      (hr : p.react exit.isSome a = some (c, p')) :
      Reacts (.running out err exit) a ((running out err exit).setPump s p') c
  | exited {out err : Pump} {e : Exit} :
      Reacts (.running out err none) (.exit e) (.running out err (some (.exited e))) none
  | lost {out err : Pump} {cause : String} :
      Reacts (.running out err none) (.failWait cause) (.running out err (some (.failed cause))) none
  | ended {out err : Pump} {e : Exit} (ho : out.state = .stopped) (he : err.state = .stopped) :
      Reacts (.running out err (some (.exited e))) .finish .finished
        (some (.finish e.code e.signal none))
  | givenUp {out err : Pump} {cause reason : String} (ho : out.state = .stopped)
      (he : err.state = .stopped) :
      Reacts (.running out err (some (.failed cause))) .finish (.reporting reason) none

variable {stage stage' : Stage} {a : Action} {c : Option Change} {out err : Pump}
  {exit : Option WaitResult} {spec : LaunchSpec}

theorem reacts_of_launch (spec : LaunchSpec) (outcome : Except String Nat) :
    Reacts .ready (.launch outcome) (launch (some spec) outcome).1
      (launch (some spec) outcome).2 := by
  cases outcome <;> cases hs : spec.command <;> simp only [launch, hs]
  · exact .refused
  · exact .refused
  · exact .refused
  · exact .launched

theorem reacts_of_reactRunning (h : reactRunning out err exit a = some (stage', c)) :
    Reacts (.running out err exit) a stage' c := by
  have onPump {s : Stream} {p : Pump} {a : Action} {f : Option Change × Pump → Stage × Option Change}
      (ha : a.stream? = some s) (hp : (running out err exit).pump? s = some p)
      (h : (p.react exit.isSome a).map f = some (stage', c))
      (hf : ∀ x, f x = ((running out err exit).setPump s x.2, x.1)) :
      Reacts (.running out err exit) a stage' c := by
    obtain ⟨⟨c', p'⟩, hr, hx⟩ := Option.map_eq_some_iff.mp h
    obtain ⟨rfl, rfl⟩ := Prod.mk.inj ((hf _).symm.trans hx)
    exact .pumped ha hp hr
  cases a with
  | read s _ | endOutput s | failRead s _ | pump s =>
    cases s with
    | stdout | stderr => exact onPump rfl rfl h fun _ => rfl
    | error => cases h
  | abort s =>
    simp only [reactRunning] at h
    split at h
    · cases h
    · cases s with
      | stdout | stderr => exact onPump rfl rfl h fun _ => rfl
      | error => cases h
  | exit e =>
    simp only [reactRunning] at h
    split at h
    next he =>
      obtain rfl : exit = none := by simpa using he
      cases h
      exact .exited
    · cases h
  | failWait cause =>
    simp only [reactRunning] at h
    split at h
    next he =>
      obtain rfl : exit = none := by simpa using he
      cases h
      exact .lost
    · cases h
  | finish =>
    cases exit with
    | none => cases h
    | some w =>
      simp only [reactRunning] at h
      split at h
      next hs =>
        cases w with
        | exited e =>
          cases h
          exact .ended hs.1 hs.2
        | failed cause =>
          cases h
          exact .givenUp hs.1 hs.2
      · cases h
  | _ => cases h

theorem reacts_of_react (h : stage.react (some spec) a = some (stage', c)) :
    Reacts stage a stage' c := by
  unfold react at h
  split at h
  next outcome =>
    obtain ⟨rfl, rfl⟩ := Prod.mk.inj (Option.some.inj h)
    exact reacts_of_launch spec outcome
  next =>
    obtain ⟨rfl, rfl⟩ := Prod.mk.inj (Option.some.inj h)
    exact .reported
  next =>
    obtain ⟨rfl, rfl⟩ := Prod.mk.inj (Option.some.inj h)
    exact .failed
  next => exact reacts_of_reactRunning h
  next => cases h

theorem Reacts.progress (h : Reacts stage a stage' c) : Progress stage a stage' c := by
  cases h with
  | refused => exact .refused
  | launched => exact .launched
  | reported => exact .reported
  | failed => exact .failed
  | @pumped out err p p' exit _ s c _ _ hr =>
    obtain ⟨out', err', he⟩ : ∃ out' err', (running out err exit).setPump s p' =
        .running out' err' exit := by cases s <;> exact ⟨_, _, rfl⟩
    rw [he]
    rcases Pump.change_of_react hr with rfl | ⟨line, rfl⟩ | ⟨s, cause, reason, rfl, rfl⟩
    · exact .worked
    · exact .logged
    · exact .unread
  | exited => exact .exited
  | lost => exact .lost
  | ended => exact .ended
  | givenUp => exact .givenUp

theorem progress_of_react (h : stage.react (some spec) a = some (stage', c)) :
    Progress stage a stage' c :=
  (reacts_of_react h).progress

end Stage

/-- An event that says nothing about how far its job is. -/
def Event.isSide (e : Event) : Bool :=
  match e.payload with
  | .artifactReady .. | .stage .. | .fileAccepted .. => true
  | _ => false

def Slot.afterEnd : Slot → Slot
  | .held => .released
  | s => s

def Task.holds (t : Task) : Bool := t.slot = .held

@[simp] theorem Task.holds_mk (id : String) (slot : Slot) (stage : Stage) :
    Task.holds ⟨id, slot, stage⟩ = decide (slot = .held) := rfl

/-- What an operation can mean for the job with the id and its task, and the events about the job that
it publishes. -/
inductive Moves (id : String) (o : Timed) (j : Job) (t : Task) :
    Job → Task → List Event → Prop where
  | rests {m : Metadata} {es : List Event} (h : ∀ e ∈ es, e.isSide = true) :
      Moves id o j t { j with metadata := m } t es
  | acquired (hs : t.stage = .waiting) : Moves id o j t j ⟨t.jobId, .held, .ready⟩ []
  | left (hs : t.stage = .finished) : Moves id o j t j ⟨t.jobId, t.slot.afterEnd, .gone⟩ []
  | worked {stage : Stage} {a : Action} (ho : o.op = .step id a)
      (hs : Progress t.stage a stage none) : Moves id o j t j { t with stage := stage } []
  | changed {stage : Stage} {a : Action} {c : Change} {j' : Job} {p : Payload}
      (ho : o.op = .step id a) (hs : Progress t.stage a stage (some c))
      (hc : Changed j o.now c j' p) :
      Moves id o j t j' { t with stage := stage } [⟨j.id, o.now, p⟩]
  | refused {stage : Stage} {a : Action} {c : Change} (ho : o.op = .step id a)
      (hs : Progress t.stage a stage (some c)) (hc : c.fits j.status = false) :
      Moves id o j t j { t with stage := stage } []

theorem Moves.idle (id : String) (o : Timed) (j : Job) (t : Task) : Moves id o j t j t [] :=
  .rests (m := j.metadata) (List.forall_mem_nil _)

namespace Registry

variable {r r' : Registry} {id i : String} {j : Job} {t u : Task} {now : Timestamp}
  {o : Operation} {as : List Bus.Act}

theorem release_eq (r : Registry) (t : Task) :
    r.release t =
      { r with freeSlots := if t.holds then r.freeSlots.map (· + 1) else r.freeSlots }.setTask
        ⟨t.jobId, t.slot.afterEnd, .gone⟩ := by
  unfold release
  cases hs : t.slot <;> simp [setStage, Slot.afterEnd, Task.holds, hs]

theorem task?_setStage {stage : Stage} (h : r.task? id = some t) :
    (r.setStage t stage).task? id = some { t with stage := stage } := by
  have hid : t.jobId = id := jobId_of_task? h
  exact task?_setTask_self h hid

theorem task?_changeIf_setStage {c : Option Change} {stage : Stage} (h : r.task? id = some t) :
    ((r.changeIf id c now).setStage t stage).task? id = some { t with stage := stage } := by
  refine task?_setStage ?_
  rw [← h, task?, task?, tasks_changeIf]

theorem task?_changeIf_setStage_of_ne {c : Option Change} {stage : Stage}
    (h : r.task? i = some u) (hi : id ≠ i) :
    ((r.changeIf i c now).setStage u stage).task? id = r.task? id := by
  have hid : u.jobId = i := jobId_of_task? h
  refine (task?_setTask_of_ne (by exact hid) hi).trans ?_
  rw [task?, task?, tasks_changeIf]

theorem moves_of_progress {stage : Stage} {a : Action} {c : Option Change} (hj : r.get? id = some j)
    (ht : r.task? id = some t) (hs : Progress t.stage a stage c) :
    ∃ j' t', ((r.changeIf id c now).setStage t stage).get? id = some j' ∧
      ((r.changeIf id c now).setStage t stage).task? id = some t' ∧
      Moves id ⟨now, .step id a⟩ j t j' t'
        (eventsOf id (publishing (c.bind (r.announcement id · now)))) := by
  cases c with
  | none => exact ⟨j, _, hj, task?_setStage ht, .worked rfl hs⟩
  | some c =>
    rcases change_cases r id c now with ⟨hr, ha, hf⟩ | ⟨k, j', p, hk, hc, hr, ha⟩
    · refine ⟨j, _, ?_, task?_changeIf_setStage (c := some c) ht, ?_⟩
      · exact (congrArg (get? · id) hr).trans hj
      · rw [Option.bind_some, ha]
        exact .refused rfl hs (hf j hj)
    · obtain rfl := Option.some.inj (hj.symm.trans hk)
      refine ⟨j', _, ?_, task?_changeIf_setStage (c := some c) ht, ?_⟩
      · exact (congrArg (get? · id) hr).trans
          (get?_setJob_self hj (hc.id_eq.trans (id_of_get? hj)))
      · rw [Option.bind_some, ha, publishing, eventsOf_publish_self, ← id_of_get? hj]
        exact .changed rfl hs hc

theorem isSide_of_told {p : Payload} (hp : p.kind = .stage ∨ p.kind = .fileAccepted) :
    ∀ e ∈ eventsOf id [.publish ⟨i, now, p⟩], e.isSide = true := by
  intro e he
  obtain rfl : e = ⟨i, now, p⟩ := List.mem_singleton.mp (List.mem_of_mem_filter he)
  cases p <;> simp [Payload.kind] at hp <;> rfl

theorem Effect.rests (h : Effect r now o r' as) (ho : o.isDirect = false)
    (hstep : ∀ a, o ≠ .step id a) (hj : r.get? id = some j) (ht : r.task? id = some t) :
    ∃ m, r'.get? id = some { j with metadata := m } ∧ r'.task? id = some t ∧
      ∀ e ∈ eventsOf id as, e.isSide = true := by
  cases h with
  | @submitted command options fresh i hc hi hn =>
    have hne : i ≠ id := fun h => by simp [← h, hn] at hj
    refine ⟨_, get?_enroll hj, task?_enroll ht, ?_⟩
    rw [eventsOf_publish_of_ne hne]
    exact List.forall_mem_nil _
  | @merged i part l hl =>
    have hid : l.id = i := id_of_get? hl
    by_cases hi : i = id
    · subst hi
      obtain rfl := Option.some.inj (hj.symm.trans hl)
      exact ⟨_, get?_setJob_self hj hid, ht, List.forall_mem_nil _⟩
    · exact ⟨_, (get?_setJob_of_ne (by exact hid) (Ne.symm hi)).trans hj, ht, List.forall_mem_nil _⟩
  | told hl hp => exact ⟨_, hj, ht, isSide_of_told hp⟩
  | @announced i artifacts l hl =>
    have hid : l.id = i := id_of_get? hl
    by_cases hi : i = id
    · subst hi
      obtain rfl := Option.some.inj (hj.symm.trans hl)
      refine ⟨_, get?_setJob_self hj hid, ht, fun e he => ?_⟩
      obtain rfl := List.mem_singleton.mp (List.mem_of_mem_filter he)
      rfl
    · refine ⟨_, (get?_setJob_of_ne (by exact hid) (Ne.symm hi)).trans hj, ht, ?_⟩
      rw [eventsOf_publish_of_ne hi]
      exact List.forall_mem_nil _
  | changed => cases ho
  | @acquired i u n hu hs hf =>
    have hi : id ≠ i := fun h => hstep _ (congrArg (Operation.step · _) h.symm)
    exact ⟨_, hj, (task?_setTask_of_ne rfl hi).trans ht, List.forall_mem_nil _⟩
  | @left i u hu hs =>
    have hi : id ≠ i := fun h => hstep _ (congrArg (Operation.step · _) h.symm)
    have hid : u.jobId = i := jobId_of_task? hu
    rw [release_eq]
    exact ⟨_, hj, (task?_setTask_of_ne (by exact hid) hi).trans ht, List.forall_mem_nil _⟩
  | @moved i a u stage c hu hs =>
    have hi : id ≠ i := fun h => hstep _ (congrArg (Operation.step · _) h.symm)
    refine ⟨_, (get?_changeIf_of_ne c now hi).trans hj,
      (task?_changeIf_setStage_of_ne hu hi).trans ht, ?_⟩
    rw [eventsOf_changeIf_of_ne c hi.symm]
    exact List.forall_mem_nil _
  | _ => exact ⟨_, hj, ht, List.forall_mem_nil _⟩

theorem Effect.moves (h : Effect r now o r' as) (ho : o.isDirect = false)
    (hj : r.get? id = some j) (ht : r.task? id = some t) :
    ∃ j' t', r'.get? id = some j' ∧ r'.task? id = some t' ∧
      Moves id ⟨now, o⟩ j t j' t' (eventsOf id as) := by
  by_cases hstep : ∃ a, o = .step id a
  · obtain ⟨a, rfl⟩ := hstep
    cases h with
    | refused => exact ⟨j, t, hj, ht, .idle id _ j t⟩
    | subscribed ho => rcases ho with ho | ho <;> cases ho
    | told hl hp => exact ⟨_, t, hj, ht, .rests (m := j.metadata) (isSide_of_told hp)⟩
    | acquired hu hs hf =>
      obtain rfl := Option.some.inj (ht.symm.trans hu)
      obtain rfl := jobId_of_task? ht
      exact ⟨j, _, hj, task?_setTask_self ht rfl, .acquired hs⟩
    | left hu hs =>
      obtain rfl := Option.some.inj (ht.symm.trans hu)
      have hid : t.jobId = id := jobId_of_task? ht
      rw [release_eq]
      exact ⟨j, _, hj, task?_setTask_self ht hid, .left hs⟩
    | moved hu hs =>
      obtain rfl := Option.some.inj (ht.symm.trans hu)
      rw [launchSpec?, hj] at hs
      exact moves_of_progress hj ht (Stage.progress_of_react hs)
  · obtain ⟨m, hj', ht', hes⟩ := h.rests ho (fun a ha => hstep ⟨a, ha⟩) hj ht
    exact ⟨_, t, hj', ht', .rests hes⟩

def Lacks (r : Registry) (id : String) : Prop := r.get? id = none ∧ r.task? id = none

/-- An operation brings in a job with its task, announced as queued, or it says nothing about it. -/
theorem Effect.enters (h : Effect r now o r' as) (ho : o.isDirect = false) (hn : r.Lacks id) :
    (r'.Lacks id ∧ eventsOf id as = []) ∨
      ∃ command options, let j := (r.enroll id command options now).1
        r'.get? id = some j ∧ r'.task? id = some (.new id r.takeSlot.1) ∧
          eventsOf id as = [.queued j now] := by
  obtain ⟨hj, ht⟩ := hn
  have hne {i : String} {l : Job} (hl : r.get? i = some l) : id ≠ i := by
    rintro rfl
    simp [hj] at hl
  have hnt {i : String} {u : Task} (hu : r.task? i = some u) : id ≠ i := by
    rintro rfl
    simp [ht] at hu
  cases h with
  | @submitted command options fresh i hc hi hn =>
    by_cases he : i = id
    · subst he
      exact .inr ⟨command, options, get?_enroll_self hj, task?_enroll_self ht,
        eventsOf_publish_self i now _⟩
    · refine .inl ⟨⟨(get?_enroll_of_ne he).trans hj, (task?_enroll_of_ne he).trans ht⟩, ?_⟩
      exact eventsOf_publish_of_ne he
  | @merged i part l hl =>
    have hid : l.id = i := id_of_get? hl
    exact .inl ⟨⟨(get?_setJob_of_ne (by exact hid) (hne hl)).trans hj, ht⟩, rfl⟩
  | @told o i p l hl hp => exact .inl ⟨⟨hj, ht⟩, eventsOf_publish_of_ne (hne hl).symm⟩
  | @announced i artifacts l hl =>
    have hid : l.id = i := id_of_get? hl
    exact .inl ⟨⟨(get?_setJob_of_ne (by exact hid) (hne hl)).trans hj, ht⟩,
      eventsOf_publish_of_ne (hne hl).symm⟩
  | changed => cases ho
  | @acquired i u n hu hs hf =>
    exact .inl ⟨⟨hj, (task?_setTask_of_ne rfl (hnt hu)).trans ht⟩, rfl⟩
  | @left i u hu hs =>
    have hid : u.jobId = i := jobId_of_task? hu
    rw [release_eq]
    exact .inl ⟨⟨hj, (task?_setTask_of_ne (by exact hid) (hnt hu)).trans ht⟩, rfl⟩
  | @moved i a u stage c hu hs =>
    exact .inl ⟨⟨(get?_changeIf_of_ne c now (hnt hu)).trans hj,
      (task?_changeIf_setStage_of_ne hu (hnt hu)).trans ht⟩, eventsOf_changeIf_of_ne c (hnt hu).symm⟩
  | _ => exact .inl ⟨⟨hj, ht⟩, rfl⟩

/-! ## Runs -/

variable {P : Job → Task → List Event → Prop} {os : List Timed}

theorem follow (hj : r.get? id = some j) (ht : r.task? id = some t)
    (step : ∀ {o j t j' t' es es'}, P j t es → Moves id o j t j' t' es' → P j' t' (es ++ es'))
    (hd : ∀ o ∈ os, o.op.isDirect = false) {es : List Event} (hp : P j t es) :
    ∃ j' t', (r.runAll os).get? id = some j' ∧ (r.runAll os).task? id = some t' ∧
      P j' t' (es ++ r.published id os) := by
  induction os generalizing r j t es with
  | nil => exact ⟨j, t, hj, ht, by simpa using hp⟩
  | cons o os ih =>
    obtain ⟨ho, hos⟩ := List.forall_mem_cons.mp hd
    obtain ⟨j', t', hj', ht', hm⟩ := (effect r o.now o.op).moves ho hj ht
    obtain ⟨k, u, hk, hu, hp'⟩ := ih hj' ht' hos (step hp hm)
    exact ⟨k, u, hk, hu, by simpa [published_cons] using hp'⟩

/-- What holds of a job as it enters, and is kept by its moves, holds of every job of a run. -/
theorem holds_of_moves {r₀ : Registry} (h : r₀.Lacks id)
    (enter : ∀ past command options now, (∀ o ∈ past, o.op.isDirect = false) →
      let r := r₀.runAll past
      let j := (r.enroll id command options now).1
      P j (.new id r.takeSlot.1) [.queued j now])
    (step : ∀ {o j t j' t' es es'}, o ∈ os → P j t es → Moves id o j t j' t' es' →
      P j' t' (es ++ es'))
    (hd : ∀ o ∈ os, o.op.isDirect = false) :
    ((r₀.runAll os).Lacks id ∧ r₀.published id os = []) ∨
      ∃ j t, (r₀.runAll os).get? id = some j ∧ (r₀.runAll os).task? id = some t ∧
        P j t (r₀.published id os) := by
  induction os using List.reverseRecOn with
  | nil => exact .inl ⟨h, rfl⟩
  | append_singleton os o ih =>
    obtain ⟨hos, ho⟩ := List.forall_mem_append.mp hd
    have ho := List.forall_mem_singleton.mp ho
    have he := effect (r₀.runAll os) o.now o.op
    have hp : r₀.published id (os ++ [o]) =
        r₀.published id os ++ eventsOf id ((r₀.runAll os).busActs o.now o.op) := by
      rw [published_append, published_cons, published_nil, List.append_nil]
    rw [runAll_append, hp]
    rcases ih (fun hm => step (List.mem_append_left _ hm)) hos with ⟨hn, hes⟩ | ⟨j, t, hj, ht, hP⟩
    · rw [hes]
      rcases he.enters ho hn with ⟨hn', he'⟩ | ⟨command, options, hj, ht, he'⟩
      · exact .inl ⟨hn', he'⟩
      · refine .inr ⟨_, _, hj, ht, ?_⟩
        rw [he']
        exact enter os command options o.now hos
    · obtain ⟨j', t', hj', ht', hm⟩ := he.moves ho hj ht
      exact .inr ⟨j', t', hj', ht', step (List.mem_concat_self) hP hm⟩

theorem lacks_new {c : JobsConfig} (h : Registry.new c = some r) (id : String) : r.Lacks id :=
  eq_of_new h ▸ ⟨rfl, rfl⟩

end Registry

end JobConsole
