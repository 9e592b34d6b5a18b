import JobConsole.Proofs.Execution.Lifecycle

/-! # Slots

A limited number of slots is shared by the tasks of a registry. A task holds a slot from the moment it
is ready until it leaves, so what is free and what is held always add up to the limit, and no more jobs
run than there are slots. A job that waits for a slot is queued, and one that is queued and does not
wait has its slot.
-/

namespace JobConsole

def Stage.slot (limited : Bool) (s : Stage) : Slot :=
  if limited then
    match s with
    | .waiting => .awaited
    | .gone => .released
    | _ => .held
  else .unneeded

/-- A job and its task agree on what the task has of the slots. -/
structure Slotted (limited : Bool) (j : Job) (t : Task) : Prop where
  slot_eq : t.slot = t.stage.slot limited
  awaiting_of_waiting : t.stage = .waiting → j.awaitingSlot = true
  of_awaiting : j.awaitingSlot = true → j.status = .queued ∧ limited = true

theorem Progress.slot_eq {s s' : Stage} {a : Action} {c : Option Change}
    (h : Progress s a s' c) (limited : Bool) :
    s'.slot limited = s.slot limited ∧ s' ≠ .waiting := by
  cases h <;> simp [Stage.slot]

theorem Changed.of_awaiting {j j' : Job} {c : Change} {now : Timestamp} {p : Payload}
    (h : Changed j now c j' p) (ha : j'.awaitingSlot = true) :
    j.awaitingSlot = true ∧ (j.status = .queued → j'.status = .queued) := by
  cases h with
  | started _ => cases ha
  | logged | reported => exact ⟨ha, id⟩
  | finished hr hj =>
    subst hj
    exact ⟨ha, fun hq => by simp [hr] at hq⟩

theorem Slotted.move {limited : Bool} {id : String} {o : Timed} {j j' : Job} {t t' : Task}
    {es : List Event} (h : Slotted limited j t) (hm : Moves id o j t j' t' es) :
    Slotted limited j' t' := by
  obtain ⟨hs, hw, ha⟩ := h
  cases hm with
  | rests _ => exact ⟨hs, hw, ha⟩
  | acquired hst =>
    obtain ⟨-, rfl⟩ := ha (hw hst)
    refine ⟨rfl, fun hn => ?_, ha⟩
    cases hn
  | left hst =>
    refine ⟨?_, fun hn => ?_, ha⟩
    · rw [hs, hst]
      cases limited <;> rfl
    · cases hn
  | worked _ hp | refused _ hp _ =>
    obtain ⟨he, hn⟩ := hp.slot_eq limited
    exact ⟨hs.trans he.symm, fun h => absurd h hn, ha⟩
  | changed _ hp hc =>
    obtain ⟨he, hn⟩ := hp.slot_eq limited
    refine ⟨hs.trans he.symm, fun h => absurd h hn, fun h => ?_⟩
    obtain ⟨ha', hq⟩ := hc.of_awaiting h
    exact ⟨hq (ha ha').1, (ha ha').2⟩

namespace Registry

variable {r r' : Registry} {id : String} {t : Task} {now : Timestamp} {o : Operation}
  {as : List Bus.Act} {os : List Timed} {n : Nat}

/-! ## The number of slots -/

theorem freeSlots_changeIf (r : Registry) (id : String) (c : Option Change) (now : Timestamp) :
    (r.changeIf id c now).freeSlots = r.freeSlots := by
  cases c with
  | none => rfl
  | some c =>
    rw [changeIf]
    rcases change_cases r id c now with ⟨hr, -, -⟩ | ⟨j, j', p, -, -, hr, -⟩
    · rw [hr]
    · rw [hr]
      rfl

theorem slotted_enroll (r : Registry) (id : String) (command : List String) (options : JobOptions)
    (now : Timestamp) :
    Slotted r.freeSlots.isSome (r.enroll id command options now).1 (.new id r.takeSlot.1) := by
  cases hf : r.freeSlots with
  | none =>
    constructor <;> simp [enroll, takeSlot, hf, Task.new, Stage.slot]
  | some n =>
    cases n with
    | zero => constructor <;> simp [enroll, takeSlot, hf, Task.new, Stage.slot, Job.new]
    | succ n => constructor <;> simp [enroll, takeSlot, hf, Task.new, Stage.slot]

theorem Effect.isSome_freeSlots (h : Effect r now o r' as) :
    r'.freeSlots.isSome = r.freeSlots.isSome := by
  cases h with
  | submitted _ _ _ =>
    simp only [enroll, takeSlot]
    split <;> simp_all
  | @changed id c => exact congrArg Option.isSome (freeSlots_changeIf r id (some c) now)
  | acquired _ _ hf => simp [setTask, hf]
  | @left id t _ _ =>
    rw [release_eq]
    simp only [setTask]
    split
    · exact Option.isSome_map
    · rfl
  | moved _ _ => exact congrArg Option.isSome (freeSlots_changeIf r _ _ now)
  | _ => rfl

theorem isSome_freeSlots_runAll (r : Registry) (os : List Timed) :
    (r.runAll os).freeSlots.isSome = r.freeSlots.isSome := by
  induction os generalizing r with
  | nil => rfl
  | cons o os ih => exact (ih _).trans (effect r o.now o.op).isSome_freeSlots

theorem freeSlots_new {c : JobsConfig} (h : Registry.new c = some r) :
    r.freeSlots = if c.maxConcurrent = 0 then none else some c.maxConcurrent :=
  eq_of_new h ▸ rfl

theorem isSome_freeSlots_new {c : JobsConfig} (h : Registry.new c = some r) :
    r.freeSlots.isSome = decide (0 < c.maxConcurrent) := by
  rw [freeSlots_new h]
  split
  next hc => simp [hc]
  next hc => simp [Nat.pos_of_ne_zero hc]

theorem slotted_runAll {c : JobsConfig} {r₀ : Registry} (h : Registry.new c = some r₀)
    (hd : ∀ o ∈ os, o.op.isDirect = false) {j : Job} (hj : (r₀.runAll os).get? id = some j) :
    ∃ t, (r₀.runAll os).task? id = some t ∧ Slotted (decide (0 < c.maxConcurrent)) j t := by
  have := holds_of_moves (P := fun j t _ => Slotted (decide (0 < c.maxConcurrent)) j t)
    (lacks_new h id) ?_ (fun _ hs hm => hs.move hm) hd
  · rcases this with ⟨⟨hn, -⟩, -⟩ | ⟨k, t, hk, ht, hs⟩
    · simp [hj] at hn
    · obtain rfl := Option.some.inj (hj.symm.trans hk)
      exact ⟨t, ht, hs⟩
  · intro past command options now _
    have := slotted_enroll (r₀.runAll past) id command options now
    rwa [isSome_freeSlots_runAll, isSome_freeSlots_new h] at this

/-! ## Jobs and tasks in pairs -/

/-- Every job has its own id, and every task its own job. -/
structure Paired (r : Registry) : Prop where
  nodup : (r.jobs.map Job.id).Nodup
  ids_eq : r.tasks.map Task.jobId = r.jobs.map Job.id

theorem ids_setJob (r : Registry) (j : Job) :
    (r.setJob j).jobs.map Job.id = r.jobs.map Job.id :=
  Keyed.map_key_map (Keyed.key_replace j) r.jobs

theorem ids_setTask (r : Registry) (t : Task) :
    (r.setTask t).tasks.map Task.jobId = r.tasks.map Task.jobId :=
  Keyed.map_key_map (Keyed.key_replace t) r.tasks

theorem ids_changeIf (r : Registry) (id : String) (c : Option Change) (now : Timestamp) :
    (r.changeIf id c now).jobs.map Job.id = r.jobs.map Job.id := by
  cases c with
  | none => rfl
  | some c =>
    rw [changeIf]
    rcases change_cases r id c now with ⟨hr, -, -⟩ | ⟨j, j', p, -, -, hr, -⟩
    · rw [hr]
    · rw [hr]
      exact ids_setJob r j'

theorem Paired.changeIf (h : r.Paired) (id : String) (c : Option Change) (now : Timestamp) :
    (r.changeIf id c now).Paired := by
  have hids := ids_changeIf r id c now
  exact ⟨hids ▸ h.nodup, (congrArg _ (tasks_changeIf r id c now)).trans (h.ids_eq.trans hids.symm)⟩

theorem Paired.setTask (h : r.Paired) (t : Task) : (r.setTask t).Paired :=
  ⟨h.nodup, (ids_setTask r t).trans h.ids_eq⟩

theorem Paired.setJob (h : r.Paired) (j : Job) : (r.setJob j).Paired :=
  ⟨ids_setJob r j ▸ h.nodup, h.ids_eq.trans (ids_setJob r j).symm⟩

theorem Effect.paired (h : Effect r now o r' as) (hp : r.Paired) : r'.Paired := by
  cases h with
  | @submitted command options fresh id hc hi hnone =>
    obtain ⟨hn, he⟩ := hp
    have hid : id ∉ r.jobs.map Job.id := Keyed.find?_eq_none_iff.mp hnone
    constructor
    · rw [enroll, List.map_append]
      exact hn.append (List.nodup_singleton id) (List.disjoint_singleton.mpr hid)
    · rw [enroll, List.map_append, List.map_append, he]
      rfl
  | merged _ | announced _ =>
    obtain ⟨hn, he⟩ := hp.setJob _
    exact ⟨hn, he⟩
  | @changed id c => exact hp.changeIf id (some c) now
  | @acquired id t n _ _ _ =>
    obtain ⟨hn, he⟩ := hp.setTask ⟨id, .held, .ready⟩
    exact ⟨hn, he⟩
  | @left id t _ _ =>
    rw [release_eq]
    obtain ⟨hn, he⟩ := hp.setTask ⟨t.jobId, t.slot.afterEnd, .gone⟩
    exact ⟨hn, he⟩
  | @moved id a t stage c _ _ => exact (hp.changeIf id c now).setTask _
  | _ => exact ⟨hp.nodup, hp.ids_eq⟩

theorem paired_new {c : JobsConfig} (h : Registry.new c = some r) : r.Paired :=
  eq_of_new h ▸ ⟨List.nodup_nil, rfl⟩

theorem Paired.runAll (h : r.Paired) (os : List Timed) : (r.runAll os).Paired := by
  induction os generalizing r with
  | nil => exact h
  | cons o os ih => exact ih ((effect r o.now o.op).paired h)

theorem Paired.get?_of_mem (h : r.Paired) {j : Job} (hj : j ∈ r.jobs) : r.get? j.id = some j :=
  Keyed.find?_of_mem h.nodup hj

theorem Paired.task?_of_mem (h : r.Paired) (ht : t ∈ r.tasks) : r.task? t.jobId = some t :=
  Keyed.find?_of_mem (h.ids_eq ▸ h.nodup) ht

/-! ## The balance of slots -/

/-- Slots that are free and slots that are held add up to a number. -/
def Balanced (n : Nat) (r : Registry) : Prop :=
  ∃ free, r.freeSlots = some free ∧ free + r.tasks.countP Task.holds = n

theorem Balanced.changeIf (h : r.Balanced n) (id : String) (c : Option Change)
    (now : Timestamp) : (r.changeIf id c now).Balanced n := by
  unfold Balanced
  rw [freeSlots_changeIf, tasks_changeIf]
  exact h

/-- Putting a task in the place of another keeps the balance if the free slots make up for it. -/
theorem Paired.balanced_setTask (h : r.Paired) {u : Task} {free free' : Nat}
    (ht : r.task? id = some t) (hu : u.jobId = id)
    (hb : free + r.tasks.countP Task.holds = n)
    (hf : free' + (if u.holds then 1 else 0) = free + (if t.holds then 1 else 0)) :
    ({ r with freeSlots := some free' }.setTask u).Balanced n := by
  subst hu
  have hc := Keyed.countP_map_replace (p := Task.holds) (h.ids_eq ▸ h.nodup) ht
  refine ⟨free', rfl, ?_⟩
  have : ({ r with freeSlots := some free' }.setTask u).tasks =
      r.tasks.map (Keyed.replace Task.jobId u) := rfl
  rw [this]
  omega

/-- Every operation keeps the balance, if no task that waits holds a slot. -/
theorem Effect.balanced (h : Effect r now o r' as) (hp : r.Paired)
    (hw : ∀ id t, r.task? id = some t → t.stage = .waiting → t.holds = false)
    (hb : r.Balanced n) : r'.Balanced n := by
  cases h with
  | @submitted command options fresh id _ _ _ =>
    obtain ⟨free, hf, hb⟩ := hb
    simp only [Balanced, enroll, List.countP_append, List.countP_singleton, takeSlot, hf]
    cases free with
    | zero => exact ⟨0, rfl, by simpa [Task.new] using hb⟩
    | succ free =>
      have hn : (Task.new id .held).holds = true := rfl
      refine ⟨free, rfl, ?_⟩
      rw [if_pos hn]
      omega
  | @changed id c => exact hb.changeIf id (some c) now
  | @acquired id t m ht hs hf =>
    obtain ⟨free, hf', hb⟩ := hb
    obtain rfl := Option.some.inj (hf.symm.trans hf')
    have hh := hw id t ht hs
    exact hp.balanced_setTask ht rfl hb (by simp [hh])
  | @left id t ht hs =>
    obtain ⟨free, hf, hb⟩ := hb
    have hid : t.jobId = id := jobId_of_task? ht
    rw [release_eq, hf]
    cases hh : t.holds with
    | true =>
      have ha : t.slot = .held := of_decide_eq_true hh
      exact hp.balanced_setTask ht hid hb (by simp [hh, Slot.afterEnd, ha])
    | false =>
      have ha : t.slot.afterEnd ≠ .held := by cases hs : t.slot <;> simp [Slot.afterEnd]
      exact hp.balanced_setTask ht hid hb (by simp [hh, ha])
  | @moved id a t stage c ht hs =>
    have ht' : (r.changeIf id c now).task? id = some t := by
      rw [← ht, task?, task?, tasks_changeIf]
    obtain ⟨free, hf, hb⟩ := hb.changeIf id c now
    have hid : t.jobId = id := jobId_of_task? ht
    have := (hp.changeIf id c now).balanced_setTask ht' (u := { t with stage := stage }) hid hb rfl
    rwa [← hf] at this
  | _ => exact hb

theorem balanced_new {c : JobsConfig} (h : Registry.new c = some r) (hc : 0 < c.maxConcurrent) :
    r.Balanced c.maxConcurrent := by
  rw [eq_of_new h]
  exact ⟨c.maxConcurrent, if_neg (Nat.ne_of_gt hc), rfl⟩

theorem Paired.exists_get? (h : r.Paired) (ht : r.task? id = some t) :
    ∃ j, r.get? id = some j := by
  have hid : id ∈ r.jobs.map Job.id :=
    h.ids_eq ▸ Keyed.isSome_find?_iff.mp (Option.isSome_of_eq_some ht)
  exact Option.isSome_iff_exists.mp (Keyed.isSome_find?_iff.mpr hid)

theorem balanced_runAll {c : JobsConfig} {r₀ : Registry} (h : Registry.new c = some r₀)
    (hc : 0 < c.maxConcurrent) (hd : ∀ o ∈ os, o.op.isDirect = false) :
    (r₀.runAll os).Balanced c.maxConcurrent := by
  induction os using List.reverseRecOn with
  | nil => exact balanced_new h hc
  | append_singleton os o ih =>
    obtain ⟨hos, -⟩ := List.forall_mem_append.mp hd
    have hp := (paired_new h).runAll os
    rw [runAll_append]
    refine (effect (r₀.runAll os) o.now o.op).balanced hp ?_ (ih hos)
    intro id t ht hs
    obtain ⟨j, hj⟩ := hp.exists_get? ht
    obtain ⟨u, hu, hsl⟩ := slotted_runAll h hos hj
    obtain rfl := Option.some.inj (ht.symm.trans hu)
    simp [Task.holds, hsl.slot_eq, hs, Stage.slot, hc]

/-! ## Running jobs -/

theorem Paired.countP_running_le (h : r.Paired)
    (hr : ∀ j ∈ r.jobs, j.status = .running → ∃ t, r.task? j.id = some t ∧ t.holds = true) :
    r.jobs.countP (·.status = .running) ≤ r.tasks.countP Task.holds := by
  have hn : (r.tasks.map Task.jobId).Nodup := h.ids_eq ▸ h.nodup
  rw [Keyed.countP_eq_countP_keys h.nodup, Keyed.countP_eq_countP_keys hn, h.ids_eq]
  refine List.countP_mono_left fun id hid hany => ?_
  obtain ⟨j, hj, rfl⟩ := List.mem_map.mp hid
  have hst : j.status = .running := by
    simpa [Keyed.find?_of_mem h.nodup hj] using hany
  obtain ⟨t, ht, hh⟩ := hr j hj hst
  have ht' : r.tasks.find? (·.jobId = j.id) = some t := ht
  simp [ht', hh]

end Registry

theorem Job.Course.status_cases {harmed : Prop} {j : Job} {stage : Stage} {ps : List Payload}
    (h : j.Course harmed stage ps) :
    (j.status = .queued ∧ (stage = .waiting ∨ stage = .ready)) ∨
      (j.status = .running ∧ stage.slot true = .held) ∨ j.status.isTerminal = true := by
  cases h with
  | waiting hq => exact .inl ⟨hq, .inl rfl⟩
  | ready hq => exact .inl ⟨hq, .inr rfl⟩
  | reporting hr | failing hr | running hr => exact .inr (.inl ⟨hr, rfl⟩)
  | ran ht | failed ht => exact .inr (.inr ht)
  | gone h =>
    cases h with
    | ran ht | failed ht => exact .inr (.inr ht)

namespace Registry

variable {r : Registry} {id : String} {t : Task} {now : Timestamp} {os : List Timed}

theorem step_leave (ht : r.task? id = some t) (hs : t.stage = .finished) :
    r.step id .leave now = some (r.release t) := by
  simp only [step, ht, stepTask, hs]

theorem freeSlots_release (hh : t.holds = true) :
    (r.release t).freeSlots = r.freeSlots.map (· + 1) := by
  rw [release_eq]
  simp only [setTask, hh, ↓reduceIte]

theorem step_of_gone (ht : r.task? id = some t) (hs : t.stage = .gone) (a : Action) :
    r.step id a now = none := by
  simp only [step, ht, stepTask, hs, Stage.react]

/-- Where slots are limited, a task holds one from when it stops waiting until it is gone. -/
theorem holds_iff {c : JobsConfig} {r₀ : Registry} (h : Registry.new c = some r₀)
    (hc : 0 < c.maxConcurrent) (hd : ∀ o ∈ os, o.op.isDirect = false)
    (ht : (r₀.runAll os).task? id = some t) :
    t.holds = true ↔ t.stage ≠ .waiting ∧ t.stage ≠ .gone := by
  obtain ⟨j, hj⟩ := ((paired_new h).runAll os).exists_get? ht
  obtain ⟨u, hu, hsl⟩ := slotted_runAll h hd hj
  obtain rfl := Option.some.inj (ht.symm.trans hu)
  have hslot := hsl.slot_eq
  rw [decide_eq_true hc] at hslot
  simp only [Task.holds, hslot]
  cases t.stage <;> simp [Stage.slot]

theorem holds_of_status {c : JobsConfig} {r₀ : Registry} (h : Registry.new c = some r₀)
    (hc : 0 < c.maxConcurrent) (hd : ∀ o ∈ os, o.op.isDirect = false) {j : Job}
    (hj : (r₀.runAll os).get? id = some j)
    (hs : j.status = .running ∨ j.status = .queued ∧ j.awaitingSlot = false) :
    ∃ t, (r₀.runAll os).task? id = some t ∧ t.holds = true := by
  obtain ⟨t, ht, hsl⟩ := slotted_runAll h hd hj
  refine ⟨t, ht, ?_⟩
  rcases course_runAll h hd id with ⟨⟨hn, -⟩, -⟩ | ⟨k, u, hk, hu, hco⟩
  · simp [hj] at hn
  obtain rfl := Option.some.inj (hj.symm.trans hk)
  obtain rfl := Option.some.inj (ht.symm.trans hu)
  have hslot := hsl.slot_eq
  rw [decide_eq_true hc] at hslot
  rcases hco.status_cases with ⟨hq, hw | hr⟩ | ⟨hr, hh⟩ | hterm
  · have ha := hsl.awaiting_of_waiting hw
    simp [hq, ha] at hs
  · simp [Task.holds, hslot, hr, Stage.slot]
  · simp [Task.holds, hslot, hh]
  · rcases hs with hs | ⟨hs, -⟩ <;> simp [hs, Status.isTerminal] at hterm

/-- With a limit, no more jobs run than there are slots, slots that are free and slots that are held by
tasks that have not ended add up to the limit, and a task that has done everything gives its slot back,
once. A queued job that does not wait has its slot, and only a queued job waits; without a limit none
does. A refused submission changes nothing. -/
theorem slots_in_balance {c : JobsConfig} {r₀ : Registry} (h : Registry.new c = some r₀)
    (os : List Timed) (hd : ∀ o ∈ os, o.op.isDirect = false) :
    let r := r₀.runAll os
    (0 < c.maxConcurrent →
      r.jobs.countP (·.status = .running) ≤ c.maxConcurrent ∧
      (∃ free, r.freeSlots = some free ∧ free + r.tasks.countP Task.holds = c.maxConcurrent) ∧
      (∀ t ∈ r.tasks, t.holds = true ↔ t.stage ≠ .waiting ∧ t.stage ≠ .gone) ∧
      (∀ t ∈ r.tasks, t.stage = .finished → ∀ now, ∃ r', r.step t.jobId .leave now = some r' ∧
        r'.freeSlots = r.freeSlots.map (· + 1)) ∧
      (∀ j ∈ r.jobs, j.status = .queued → j.awaitingSlot = false →
        ∃ t ∈ r.tasks, t.jobId = j.id ∧ t.holds = true)) ∧
    (∀ t ∈ r.tasks, t.stage = .gone → ∀ a now, r.step t.jobId a now = none) ∧
    (∀ j ∈ r.jobs, j.awaitingSlot = true → j.status = .queued ∧ 0 < c.maxConcurrent) ∧
    ∀ command options fresh now e, r.submit command options fresh now = .error e →
      r.apply now (.submit command options fresh) = r := by
  intro r
  have hp : r.Paired := (paired_new h).runAll os
  refine ⟨fun hc => ⟨?_, balanced_runAll h hc hd, ?_, ?_, ?_⟩, ?_, ?_, ?_⟩
  · obtain ⟨free, -, hb⟩ := balanced_runAll h hc hd
    have := hp.countP_running_le fun j hj hr =>
      holds_of_status h hc hd (hp.get?_of_mem hj) (.inl hr)
    exact Nat.le_trans this (hb ▸ Nat.le_add_left _ _)
  · exact fun t ht => holds_iff h hc hd (hp.task?_of_mem ht)
  · intro t ht hs now
    have hh : t.holds = true := (holds_iff h hc hd (hp.task?_of_mem ht)).mpr (by simp [hs])
    exact ⟨_, step_leave (hp.task?_of_mem ht) hs, freeSlots_release hh⟩
  · intro j hj hq ha
    obtain ⟨t, ht, hh⟩ := holds_of_status h hc hd (hp.get?_of_mem hj) (.inr ⟨hq, ha⟩)
    exact ⟨t, mem_of_task? ht, jobId_of_task? ht, hh⟩
  · intro t ht hs a now
    exact step_of_gone (hp.task?_of_mem ht) hs a
  · intro j hj ha
    obtain ⟨t, -, hsl⟩ := slotted_runAll h hd (hp.get?_of_mem hj)
    exact (hsl.of_awaiting ha).imp_right of_decide_eq_true
  · intro command options fresh now e he
    rw [apply, he]
    rfl

/-- The slot of a job that could not be launched goes to the job that waits for it. -/
theorem slots_in_balance_of_failed_launch :
    let os : List Timed :=
      [⟨default, .submit ["true"] .none "a"⟩, ⟨default, .submit ["true"] .none "b"⟩,
        ⟨default, .submit ["true"] .none "b"⟩, ⟨default, .step "b" .acquire⟩,
        ⟨default, .step "a" (.launch (.error "not found"))⟩, ⟨default, .step "a" .report⟩,
        ⟨default, .step "a" .fail⟩, ⟨default, .step "a" .leave⟩, ⟨default, .step "b" .acquire⟩,
        ⟨default, .step "b" (.launch (.ok 7))⟩]
    ∃ r₀, Registry.new ⟨1, 1, 8, "/", "", ""⟩ = some r₀ ∧ (∀ o ∈ os, o.op.isDirect = false) ∧
      (r₀.runAll os).tasks.map Task.slot = [.released, .held] ∧
      (r₀.runAll os).jobs.map Job.status = [.failed, .running] ∧
      (r₀.runAll os).jobs.countP (·.status = .running) ≤ 1 ∧
      ∃ free, (r₀.runAll os).freeSlots = some free ∧
        free + (r₀.runAll os).tasks.countP Task.holds = 1 := by
  intro os
  have hd : ∀ o ∈ os, o.op.isDirect = false := by simp [os, Operation.isDirect]
  obtain ⟨r₀, h⟩ : ∃ r₀, Registry.new ⟨1, 1, 8, "/", "", ""⟩ = some r₀ := ⟨_, rfl⟩
  obtain ⟨hle, hb, -⟩ := (slots_in_balance h os hd).1 Nat.zero_lt_one
  refine ⟨r₀, h, hd, ?_, ?_, hle, hb⟩
  all_goals
    cases h
    rfl

end Registry

end JobConsole
