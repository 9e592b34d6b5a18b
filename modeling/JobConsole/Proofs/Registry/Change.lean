import JobConsole.Execution.Step
import JobConsole.Proofs.Keyed

/-! # Changes of jobs

A change replaces one job and publishes one event, or does nothing. A job is started only while it is
queued and finished only while it runs; text enters its log at any time. No change touches another
job, a task or a slot.
-/

namespace JobConsole

/-- What a change makes of a job, and what announces the change. -/
inductive Changed (j : Job) (now : Timestamp) : Change → Job → Payload → Prop where
  | started {pid : Option Nat} (h : j.status = .queued) :
      Changed j now (.start pid)
        { j with status := .running, awaitingSlot := false, pid := pid, startedAt := some now }
        (.started pid)
  | logged {stream : Stream} {message : String} :
      Changed j now (.log stream message) (j.pushLog ⟨stream, message, now⟩)
        (.log ⟨stream, message, now⟩)
  | reported {message : String} :
      Changed j now (.report message) (j.pushLog ⟨.error, message, now⟩) (.error message)
  | finished {exitCode : Option Int} {signal error : Option String} {j' : Job}
      (h : j.status = .running) (hj : j' = { j with
        status := Job.outcome exitCode error
        exitCode := exitCode
        signal := signal
        error := j.finishedError exitCode signal error
        completedAt := some now }) :
      Changed j now (.finish exitCode signal error) j' (Event.finished j' now).payload

variable {j j' : Job} {c : Change} {now : Timestamp} {p : Payload}

theorem isTerminal_outcome (exitCode : Option Int) (error : Option String) :
    (Job.outcome exitCode error).isTerminal = true := by
  unfold Job.outcome Status.ofExitCode
  split
  · rfl
  · split <;> rfl

theorem canMoveTo_outcome_iff {s : Status} {exitCode : Option Int} {error : Option String} :
    s.canMoveTo (Job.outcome exitCode error) = true ↔ s = .running := by
  have h := isTerminal_outcome exitCode error
  generalize Job.outcome exitCode error = o at h ⊢
  cases s <;> cases o <;> simp_all [Status.canMoveTo, Status.isTerminal]

theorem eq_of_moveTo {s : Status} (h : j.moveTo s = .ok j') :
    j.status.canMoveTo s = true ∧ j' = { j with status := s } := by
  unfold Job.moveTo at h
  split at h
  next hs => exact ⟨hs, (Except.ok.inj h).symm⟩
  · cases h

theorem eq_of_markRunning {pid : Option Nat} (h : j.markRunning pid now = .ok j') :
    j.status = .queued ∧
      j' = { j with
        status := .running, awaitingSlot := false, pid := pid, startedAt := some now } := by
  unfold Job.markRunning at h
  split at h
  · cases h
  next k hk =>
    obtain ⟨hs, rfl⟩ := eq_of_moveTo hk
    refine ⟨?_, (Except.ok.inj h).symm⟩
    cases hj : j.status <;> simp [hj, Status.canMoveTo] at hs
    rfl

theorem eq_of_markFinished {exitCode : Option Int} {signal error : Option String}
    (h : j.markFinished exitCode signal error now = .ok j') :
    j.status = .running ∧
      j' = { j with
        status := Job.outcome exitCode error
        exitCode := exitCode
        signal := signal
        error := j.finishedError exitCode signal error
        completedAt := some now } := by
  unfold Job.markFinished at h
  split at h
  · cases h
  next k hk =>
    obtain ⟨hs, rfl⟩ := eq_of_moveTo hk
    exact ⟨canMoveTo_outcome_iff.mp hs, (Except.ok.inj h).symm⟩

theorem changed_of_on (h : c.on j now = .ok (j', p)) : Changed j now c j' p := by
  cases c with
  | start pid =>
    simp only [Change.on] at h
    split at h
    · cases h
    next k hk =>
      obtain ⟨rfl, rfl⟩ := Prod.mk.inj (Except.ok.inj h)
      obtain ⟨hs, rfl⟩ := eq_of_markRunning hk
      exact .started hs
  | log stream message =>
    obtain ⟨rfl, rfl⟩ := Prod.mk.inj (Except.ok.inj h)
    exact .logged
  | report message =>
    obtain ⟨rfl, rfl⟩ := Prod.mk.inj (Except.ok.inj h)
    exact .reported
  | finish exitCode signal error =>
    simp only [Change.on] at h
    split at h
    · cases h
    next k hk =>
      obtain ⟨rfl, rfl⟩ := Prod.mk.inj (Except.ok.inj h)
      obtain ⟨hs, hj⟩ := eq_of_markFinished hk
      exact .finished hs hj

def Change.fits : Change → Status → Bool
  | .start _, s => s = .queued
  | .finish .., s => s = .running
  | _, _ => true

theorem fits_of_on {e : Error} (h : c.on j now = .error e) : c.fits j.status = false := by
  cases c with
  | start pid =>
    cases hs : j.status <;>
      simp [Change.on, Job.markRunning, Job.moveTo, Status.canMoveTo, Change.fits, hs] at h ⊢
  | log stream message => cases h
  | report message => cases h
  | finish exitCode signal error =>
    by_cases hs : j.status = .running
    · simp [Change.on, Job.markFinished, Job.moveTo, canMoveTo_outcome_iff, hs] at h
    · simp [Change.fits, hs]

theorem Changed.id_eq (h : Changed j now c j' p) : j'.id = j.id := by
  cases h with
  | finished h hj => exact hj ▸ rfl
  | _ => rfl

theorem Changed.isTerminal {exitCode : Option Int} {signal error : Option String}
    (h : Changed j now (.finish exitCode signal error) j' p) : j'.status.isTerminal = true := by
  cases h with
  | finished _ hj =>
    rw [hj]
    exact isTerminal_outcome exitCode error

namespace Registry

variable {r : Registry} {id k : String} {t : Task}

theorem eq_of_new {c : JobsConfig} (h : Registry.new c = some r) :
    r = ⟨[], .new c.maxSubscribers, if c.maxConcurrent = 0 then none else some c.maxConcurrent, [],
      c.logCapacity, c.workingDir⟩ := by
  unfold Registry.new at h
  split at h
  · cases h
  · exact (Option.some.inj h).symm

theorem jobs_new {c : JobsConfig} (h : Registry.new c = some r) : r.jobs = [] := eq_of_new h ▸ rfl

/-- The event of a change, if the job exists and admits it. -/
def announcement (r : Registry) (id : String) (c : Change) (now : Timestamp) : Option Event :=
  match r.get? id with
  | none => none
  | some j =>
    match c.on j now with
    | .error _ => none
    | .ok (_, p) => some ⟨id, now, p⟩

/-! ## Jobs and tasks by id -/

theorem id_of_get? (h : r.get? id = some j) : j.id = id := Keyed.key_of_find? h

theorem jobId_of_task? (h : r.task? id = some t) : t.jobId = id := Keyed.key_of_find? h

theorem mem_of_task? (h : r.task? id = some t) : t ∈ r.tasks := List.mem_of_find?_eq_some h

@[simp] theorem get?_publish (r : Registry) (e : Event) (k : String) :
    (r.publish e).get? k = r.get? k := rfl

theorem get?_setJob (r : Registry) (j : Job) (k : String) :
    (r.setJob j).get? k = (r.get? k).map fun i => if i.id = j.id then j else i :=
  Keyed.find?_map (f := Keyed.replace Job.id j) (Keyed.key_replace j) r.jobs k

theorem get?_setJob_of_ne (hj : j.id = id) (h : k ≠ id) : (r.setJob j).get? k = r.get? k := by
  subst hj
  rw [get?_setJob]
  cases hk : r.get? k with
  | none => rfl
  | some i => rw [Option.map_some, if_neg (id_of_get? hk ▸ h)]

theorem get?_setJob_self (h : r.get? id = some j) (hj : j'.id = id) :
    (r.setJob j').get? id = some j' := by
  rw [get?_setJob, h, Option.map_some, if_pos ((id_of_get? h).trans hj.symm)]

theorem task?_setTask (r : Registry) (t : Task) (k : String) :
    (r.setTask t).task? k = (r.task? k).map fun u => if u.jobId = t.jobId then t else u :=
  Keyed.find?_map (f := Keyed.replace Task.jobId t) (Keyed.key_replace t) r.tasks k

theorem task?_setTask_of_ne (ht : t.jobId = id) (h : k ≠ id) :
    (r.setTask t).task? k = r.task? k := by
  subst ht
  rw [task?_setTask]
  cases hk : r.task? k with
  | none => rfl
  | some u => rw [Option.map_some, if_neg (jobId_of_task? hk ▸ h)]

theorem task?_setTask_self {u : Task} (h : r.task? id = some t) (hu : u.jobId = id) :
    (r.setTask u).task? id = some u := by
  rw [task?_setTask, h, Option.map_some, if_pos (jobId_of_task? h ▸ hu.symm)]

/-- Either a change is refused, or its job admits it. -/
theorem change_cases (r : Registry) (id : String) (c : Change) (now : Timestamp) :
    (r.change id c now = r ∧ r.announcement id c now = none ∧
        ∀ j, r.get? id = some j → c.fits j.status = false) ∨
      ∃ j j' p, r.get? id = some j ∧ Changed j now c j' p ∧
        r.change id c now = (r.setJob j').publish ⟨id, now, p⟩ ∧
        r.announcement id c now = some ⟨id, now, p⟩ := by
  simp only [change, announcement]
  cases hj : r.get? id with
  | none => exact .inl ⟨rfl, rfl, fun _ h => by cases h⟩
  | some j =>
    cases hc : c.on j now with
    | error e =>
      refine .inl ⟨by simp only [hc], by simp only [hc], fun k hk => ?_⟩
      exact Option.some.inj hk ▸ fits_of_on hc
    | ok x =>
      obtain ⟨j', p⟩ := x
      exact .inr ⟨j, j', p, rfl, changed_of_on hc, by simp only [hc], by simp only [hc]⟩

theorem tasks_change (r : Registry) (id : String) (c : Change) (now : Timestamp) :
    (r.change id c now).tasks = r.tasks := by
  rcases change_cases r id c now with ⟨hr, -, -⟩ | ⟨j, j', p, -, -, hr, -⟩
  · rw [hr]
  · rw [hr]
    rfl

theorem tasks_changeIf (r : Registry) (id : String) (c : Option Change) (now : Timestamp) :
    (r.changeIf id c now).tasks = r.tasks := by
  cases c with
  | none => rfl
  | some c => exact tasks_change r id c now

theorem get?_changeIf_of_ne (c : Option Change) (now : Timestamp) (h : k ≠ id) :
    (r.changeIf id c now).get? k = r.get? k := by
  cases c with
  | none => rfl
  | some c =>
    rw [changeIf]
    rcases change_cases r id c now with ⟨hr, -, -⟩ | ⟨j, j', p, hj, hc, hr, -⟩
    · rw [hr]
    · rw [hr, get?_publish, get?_setJob_of_ne (hc.id_eq.trans (id_of_get? hj)) h]

theorem jobId_of_announcement {c : Change} {e : Event} (h : r.announcement id c now = some e) :
    e.jobId = id := by
  rcases change_cases r id c now with ⟨-, ha, -⟩ | ⟨j, j', p, -, -, -, ha⟩
  · exact absurd (ha.symm.trans h) (by simp)
  · exact Option.some.inj (ha.symm.trans h) ▸ rfl

end Registry

end JobConsole
