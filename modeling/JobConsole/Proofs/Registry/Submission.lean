import JobConsole.Proofs.Registry.Ids

/-! # Submitting

A submission enters a job with its one task and announces it once, or it changes nothing at all. Of
the submissions under one id the first enters the job, and all others find the id taken. What has
been entered stays, in its place and on the terms on which it was admitted.
-/

namespace JobConsole

/-- The terms on which a job is admitted. -/
structure Terms where
  id : String
  label : String
  command : List String
  cwd : String
  env : Dict String
  createdAt : Timestamp

def Job.terms (j : Job) : Terms := ⟨j.id, j.label, j.command, j.cwd, j.env, j.createdAt⟩

def Event.isQueued (e : Event) : Bool := e.payload.kind = .queued

/-- The id under which an operation would enter a job, if it is a submission in order. -/
def Operation.asked? : Operation → Option String
  | .submit command options fresh =>
    match checkCommand command with
    | .ok () => (Registry.chooseId options fresh).toOption
    | .error _ => none
  | _ => none

theorem Operation.asked?_eq_some_iff {o : Operation} {id : String} :
    o.asked? = some id ↔ ∃ command options fresh, o = .submit command options fresh ∧
      checkCommand command = .ok () ∧ Registry.chooseId options fresh = .ok id := by
  constructor
  · intro h
    cases o with
    | submit command options fresh =>
      refine ⟨command, options, fresh, rfl, ?_⟩
      simp only [asked?] at h
      split at h
      next hc =>
        cases hi : Registry.chooseId options fresh <;> simp [hi, Except.toOption] at h
        exact ⟨hc, h ▸ rfl⟩
      next => cases h
    | _ => cases h
  · rintro ⟨command, options, fresh, rfl, hc, hi⟩
    simp [asked?, hc, hi, Except.toOption]

namespace Registry

variable {r r' : Registry} {id : String} {j j' : Job} {now : Timestamp} {o : Operation}
  {os : List Timed} {as : List Bus.Act} {command : List String} {options : JobOptions}
  {fresh : String}

/-! ## One submission -/

theorem submit_eq_ok (hc : checkCommand command = .ok ()) (hi : chooseId options fresh = .ok id)
    (hn : r.get? id = none) :
    r.submit command options fresh now = .ok (r.enroll id command options now) := by
  simp [submit, hc, hi, hn]

theorem submit_eq_error (hc : checkCommand command = .ok ()) (hi : chooseId options fresh = .ok id)
    (hn : (r.get? id).isSome = true) :
    r.submit command options fresh now = .error (.duplicateJob id) := by
  simp [submit, hc, hi, hn]

theorem submit_isOk_iff :
    (∃ x, r.submit command options fresh now = .ok x) ↔
      ∃ id, (Operation.submit command options fresh).asked? = some id ∧ r.get? id = none := by
  constructor
  · rintro ⟨⟨j, r'⟩, h⟩
    obtain ⟨id, hc, hi, hn, -⟩ := chooseId_of_submit h
    exact ⟨id, Operation.asked?_eq_some_iff.mpr ⟨command, options, fresh, rfl, hc, hi⟩, hn⟩
  · rintro ⟨id, ha, hn⟩
    obtain ⟨_, _, _, ho, hc, hi⟩ := Operation.asked?_eq_some_iff.mp ha
    obtain ⟨rfl, rfl, rfl⟩ := Operation.submit.inj ho
    exact ⟨_, submit_eq_ok hc hi hn⟩

theorem apply_of_submit_error {e : Error} (h : r.submit command options fresh now = .error e) :
    r.apply now (.submit command options fresh) = r ∧
      r.busActs now (.submit command options fresh) = [] := by
  simp only [apply, busActs, h, Except.map, orSelf, and_self]

theorem Paired.task?_eq_none (h : r.Paired) (hn : r.get? id = none) : r.task? id = none := by
  have hid := Keyed.find?_eq_none_iff.mp hn
  exact Keyed.find?_eq_none_iff.mpr (h.ids_eq ▸ hid)

/-! ## The terms of admitted jobs -/

def admitted (r : Registry) : List Terms := r.jobs.map Job.terms

theorem admitted_setJob (hp : r.Paired) (hj : r.get? id = some j) (ht : j'.terms = j.terms) :
    (r.setJob j').admitted = r.admitted := by
  simp only [admitted, setJob, List.map_map]
  refine List.map_congr_left fun k hk => ?_
  by_cases hid : k.id = j'.id
  · have hj' : j'.id = id := (congrArg Terms.id ht).trans (id_of_get? hj)
    have hkj : k = j := by
      have := hp.get?_of_mem hk
      rw [hid, hj', hj] at this
      exact (Option.some.inj this).symm
    rw [Function.comp_apply, if_pos hid, ht, hkj]
  · rw [Function.comp_apply, if_neg hid]

theorem terms_of_changed {c : Change} {p : Payload} (h : Changed j now c j' p) :
    j'.terms = j.terms := by
  cases h with
  | finished _ hj => exact hj ▸ rfl
  | _ => rfl

theorem admitted_change (hp : r.Paired) (id : String) (c : Change) (now : Timestamp) :
    (r.change id c now).admitted = r.admitted := by
  rcases change_cases r id c now with ⟨hr, -, -⟩ | ⟨j, j', p, hj, hc, hr, -⟩
  · rw [hr]
  · rw [hr]
    exact admitted_setJob hp hj (terms_of_changed hc)

theorem admitted_changeIf (hp : r.Paired) (id : String) (c : Option Change) (now : Timestamp) :
    (r.changeIf id c now).admitted = r.admitted := by
  cases c with
  | none => rfl
  | some c => exact admitted_change hp id c now

theorem isQueued_of_publishing {c : Option Change} :
    ∀ e ∈ (publishing (c.bind (r.announcement id · now))).flatMap Bus.Act.events,
      e.isQueued = false := by
  rintro ⟨k, moment, p⟩ he
  obtain ⟨j, c', j', hc⟩ := changed_of_mem_publishing he
  cases hc <;> rfl

/-- An operation admits nobody, or it is the submission of one job. -/
theorem Effect.admits (h : Effect r now o r' as) (hp : r.Paired) :
    (r'.admitted = r.admitted ∧ ∀ e ∈ as.flatMap Bus.Act.events, e.isQueued = false) ∨
      ∃ id command options fresh, o = .submit command options fresh ∧
        checkCommand command = .ok () ∧ chooseId options fresh = .ok id ∧ r.get? id = none ∧
        r' = (r.enroll id command options now).2 ∧
        as = [.publish (.queued (r.enroll id command options now).1 now)] := by
  cases h with
  | @submitted command options fresh id hc hi hn =>
    exact .inr ⟨id, command, options, fresh, rfl, hc, hi, hn, rfl, rfl⟩
  | merged hj => exact .inl ⟨admitted_setJob hp hj rfl, List.forall_mem_nil _⟩
  | announced hj => exact .inl ⟨admitted_setJob hp hj rfl, List.forall_mem_singleton.mpr rfl⟩
  | @told _ _ p _ _ hk =>
    refine .inl ⟨rfl, List.forall_mem_singleton.mpr ?_⟩
    rcases hk with hk | hk <;> simp [Event.isQueued, hk]
  | @changed id c =>
    exact .inl ⟨admitted_change hp id c now, isQueued_of_publishing (c := some c)⟩
  | @left id t _ _ =>
    exact .inl ⟨congrArg (·.jobs.map Job.terms) (release_eq r t), List.forall_mem_nil _⟩
  | @moved id a t stage c _ _ =>
    exact .inl ⟨admitted_changeIf hp id c now, isQueued_of_publishing⟩
  | _ => exact .inl ⟨rfl, by simp [Bus.Act.events]⟩

theorem terms_enroll (id : String) (command : List String) (options : JobOptions)
    (now : Timestamp) :
    (r.enroll id command options now).2.admitted =
      r.admitted ++ [(r.enroll id command options now).1.terms] :=
  List.map_append

theorem isSome_get?_congr (h : r'.admitted = r.admitted) (id : String) :
    (r'.get? id).isSome = (r.get? id).isSome := by
  have hids : r'.jobs.map Job.id = r.jobs.map Job.id := by
    have := congrArg (List.map Terms.id) h
    simpa [admitted, Function.comp_def, Job.terms] using this
  rw [Bool.eq_iff_iff, get?, get?, Keyed.isSome_find?_iff, Keyed.isSome_find?_iff, hids]

/-! ## Submissions under one id -/

/-- What an operation is answered, if it is a submission under the id. -/
def reply (r : Registry) (id : String) (o : Timed) : List (Except Error Job) :=
  match o.op with
  | .submit command options fresh =>
    if o.op.asked? = some id then [(r.submit command options fresh o.now).map (·.1)] else []
  | _ => []

def replies (r : Registry) (id : String) : List Timed → List (Except Error Job)
  | [] => []
  | o :: os => r.reply id o ++ (r.apply o.now o.op).replies id os

def countAsked (id : String) (os : List Timed) : Nat := os.countP (·.op.asked? = some id)

theorem isSome_get?_apply (hp : r.Paired) (now : Timestamp) (o : Operation)
    (h : (r.get? id).isSome = true) : ((r.apply now o).get? id).isSome = true := by
  obtain ⟨j, hj⟩ := Option.isSome_iff_exists.mp h
  rcases (effect r now o).admits hp with ⟨ha, -⟩ | ⟨i, command, options, fresh, -, -, -, -, hr, -⟩
  · rw [isSome_get?_congr ha, h]
  · rw [hr, get?_enroll hj, Option.isSome_some]

theorem get?_apply_of_not_asked (hp : r.Paired) (now : Timestamp) (hn : r.get? id = none)
    (ho : o.asked? ≠ some id) : (r.apply now o).get? id = none := by
  rcases (effect r now o).admits hp with ⟨ha, -⟩ | ⟨i, command, options, fresh, rfl, hc, hi, -, hr, -⟩
  · simpa [hn] using isSome_get?_congr ha id
  · have hne : i ≠ id := by
      rintro rfl
      exact ho (Operation.asked?_eq_some_iff.mpr ⟨command, options, fresh, rfl, hc, hi⟩)
    rw [hr, get?_enroll_of_ne hne, hn]

theorem reply_of_not_asked {o : Timed} (ho : o.op.asked? ≠ some id) : r.reply id o = [] := by
  unfold reply
  split
  · exact if_neg ho
  · rfl

theorem reply_of_taken {o : Timed} (ho : o.op.asked? = some id)
    (h : (r.get? id).isSome = true) : r.reply id o = [.error (.duplicateJob id)] := by
  obtain ⟨command, options, fresh, hop, hc, hi⟩ := Operation.asked?_eq_some_iff.mp ho
  simp only [reply, hop] at ho ⊢
  rw [if_pos ho, submit_eq_error hc hi h]
  rfl

theorem replies_of_taken (hp : r.Paired) (h : (r.get? id).isSome = true) (os : List Timed) :
    r.replies id os = List.replicate (countAsked id os) (.error (.duplicateJob id)) := by
  induction os generalizing r with
  | nil => rfl
  | cons o os ih =>
    rw [replies, ih ((effect r o.now o.op).paired hp) (isSome_get?_apply hp o.now o.op h)]
    by_cases ho : o.op.asked? = some id
    · rw [reply_of_taken ho h]
      simp [countAsked, ho, List.replicate_succ]
    · rw [reply_of_not_asked ho]
      simp [countAsked, ho]

/-- The first submission under an id that is free enters the job. -/
theorem replies_of_free (hp : r.Paired) (hn : r.get? id = none) (ha : 0 < countAsked id os) :
    ∃ j, j.id = id ∧ r.replies id os =
      .ok j :: List.replicate (countAsked id os - 1) (.error (.duplicateJob id)) := by
  induction os generalizing r with
  | nil => cases ha
  | cons o os ih =>
    have hp' := (effect r o.now o.op).paired hp
    rw [replies]
    by_cases ho : o.op.asked? = some id
    · obtain ⟨command, options, fresh, hop, hc, hi⟩ := Operation.asked?_eq_some_iff.mp ho
      have hs : r.submit command options fresh o.now = .ok (r.enroll id command options o.now) :=
        submit_eq_ok hc hi hn
      have hj : ((r.apply o.now o.op).get? id).isSome = true := by
        rw [hop, apply, hs]
        exact Option.isSome_of_eq_some (get?_enroll_self hn)
      have hreply : r.reply id o = [.ok (r.enroll id command options o.now).1] := by
        simp only [reply, hop] at ho ⊢
        rw [if_pos ho, hs]
        rfl
      refine ⟨(r.enroll id command options o.now).1, rfl, ?_⟩
      rw [hreply, replies_of_taken hp' hj os]
      simp [countAsked, ho]
    · have hcount : countAsked id (o :: os) = countAsked id os := by simp [countAsked, ho]
      rw [hcount] at ha ⊢
      rw [reply_of_not_asked ho]
      exact ih hp' (get?_apply_of_not_asked hp o.now hn ho) ha

/-! ## Admitted jobs along a run -/

theorem Effect.admitted_eq (h : Effect r now o r' as) (hp : r.Paired) :
    ∃ added, r'.admitted = r.admitted ++ added ∧ ∀ t ∈ added, checkCommand t.command = .ok () ∧
      (checkId t.id = .ok () ∨ o.fresh = some t.id) := by
  rcases h.admits hp with ⟨ha, -⟩ | ⟨id, command, options, fresh, rfl, hc, hi, -, rfl, -⟩
  · exact ⟨[], ha.trans (List.append_nil _).symm, List.forall_mem_nil _⟩
  · refine ⟨_, terms_enroll id command options now, List.forall_mem_singleton.mpr ⟨hc, ?_⟩⟩
    exact (of_chooseId hi).imp_right fun he => congrArg some he.symm

theorem admitted_runAll (hp : r.Paired) (os : List Timed) :
    ∃ added, (r.runAll os).admitted = r.admitted ++ added ∧
      ∀ t ∈ added, checkCommand t.command = .ok () ∧
        (checkId t.id = .ok () ∨ ∃ o ∈ os, o.op.fresh = some t.id) := by
  induction os generalizing r with
  | nil => exact ⟨[], (List.append_nil _).symm, List.forall_mem_nil _⟩
  | cons o os ih =>
    have he := effect r o.now o.op
    obtain ⟨added, ha, hadded⟩ := he.admitted_eq hp
    obtain ⟨added', ha', hadded'⟩ := ih (he.paired hp)
    refine ⟨added ++ added', by rw [runAll, ha', ha, List.append_assoc], fun t ht => ?_⟩
    rcases List.mem_append.mp ht with ht | ht
    · obtain ⟨hc, hi⟩ := hadded t ht
      exact ⟨hc, hi.imp_right fun hf => ⟨o, List.mem_cons_self, hf⟩⟩
    · obtain ⟨hc, hi | ⟨o', ho', hf⟩⟩ := hadded' t ht
      · exact ⟨hc, .inl hi⟩
      · exact ⟨hc, .inr ⟨o', List.mem_cons_of_mem _ ho', hf⟩⟩

theorem checked_of_mem {c : JobsConfig} {r₀ : Registry} (h : Registry.new c = some r₀)
    (hf : ∀ o ∈ os, ∀ id, o.op.fresh = some id → isUuid id = true)
    (hj : j ∈ (r₀.runAll os).jobs) :
    checkId j.id = .ok () ∧ checkCommand j.command = .ok () := by
  obtain ⟨added, ha, hadded⟩ := admitted_runAll (paired_new h) os
  rw [admitted, admitted, jobs_new h, List.map_nil, List.nil_append] at ha
  obtain ⟨hc, hi⟩ := hadded j.terms (ha ▸ List.mem_map_of_mem hj)
  refine ⟨?_, hc⟩
  rcases hi with hi | ⟨o, ho, hi⟩
  · exact hi
  · exact checkId_of_isUuid (hf o ho _ hi)

/-- A job that has been admitted is found under its id for ever, on the same terms. -/
theorem get?_runAll (hp : r.Paired) (hj : r.get? id = some j) (os : List Timed) :
    ∃ k, (r.runAll os).get? id = some k ∧ k.terms = j.terms := by
  obtain ⟨added, ha, -⟩ := admitted_runAll hp os
  have hm : j.terms ∈ (r.runAll os).admitted := by
    rw [ha]
    exact List.mem_append_left _ (List.mem_map_of_mem (List.mem_of_find?_eq_some hj))
  obtain ⟨k, hk, hterms⟩ := List.mem_map.mp hm
  have hid : k.id = id := (congrArg Terms.id hterms).trans (id_of_get? hj)
  exact ⟨k, hid ▸ (hp.runAll os).get?_of_mem hk, hterms⟩

theorem countP_isQueued (hp : r.Paired) (id : String) (os : List Timed) :
    (r.get? id).isSome.toNat + (r.published id os).countP Event.isQueued =
      ((r.runAll os).get? id).isSome.toNat := by
  induction os generalizing r with
  | nil => rfl
  | cons o os ih =>
    have he := effect r o.now o.op
    rw [published_cons, List.countP_append, runAll, ← ih (he.paired hp), ← Nat.add_assoc]
    congr 1
    rcases he.admits hp with ⟨ha, hq⟩ | ⟨i, command, options, fresh, -, -, -, hn, hr, has⟩
    · rw [isSome_get?_congr ha, List.countP_eq_zero.mpr, Nat.add_zero]
      exact fun e he => by simp [hq e (List.mem_of_mem_filter he)]
    · rw [hr, has]
      by_cases hi : i = id
      · subst hi
        have hself : eventsOf i [.publish (.queued (r.enroll i command options o.now).1 o.now)] =
            [.queued (r.enroll i command options o.now).1 o.now] := eventsOf_publish_self ..
        rw [hn, hself, get?_enroll_self hn]
        rfl
      · rw [eventsOf_publish_of_ne hi, get?_enroll_of_ne hi]
        rfl

/-- A refused submission changes nothing. An accepted one enters one queued job at the end, under an
id that was free, announces it and starts its one task; and it is accepted exactly if it is in order
and its id is free. So of any number of submissions under one free id exactly the first is accepted,
whatever comes between them, and all others are conflicts. Every job is found under its own id,
which passes the check, has a command that passes the check, and one task, and has been announced as
queued once. No job is ever removed, replaced or moved, and the terms on which it was admitted never
change. -/
theorem submission_all_or_nothing {c : JobsConfig} {r₀ : Registry} (h : Registry.new c = some r₀)
    (past : List Timed) (hf : ∀ o ∈ past, ∀ id, o.op.fresh = some id → isUuid id = true) :
    let r := r₀.runAll past
    (∀ command options fresh now,
      ((∃ x, r.submit command options fresh now = .ok x) ↔
        ∃ id, (Operation.submit command options fresh).asked? = some id ∧ r.get? id = none) ∧
      (∀ e, r.submit command options fresh now = .error e →
        r.apply now (.submit command options fresh) = r ∧
          r.busActs now (.submit command options fresh) = []) ∧
      ∀ j r', r.submit command options fresh now = .ok (j, r') →
        r.apply now (.submit command options fresh) = r' ∧ j.status = .queued ∧
        r.get? j.id = none ∧ r'.jobs = r.jobs ++ [j] ∧ r'.get? j.id = some j ∧
        r'.bus = r.bus.publish (.queued j now) ∧
        r.task? j.id = none ∧ ∃ slot, r'.tasks = r.tasks ++ [.new j.id slot]) ∧
    (∀ id os, r.get? id = none → 0 < countAsked id os →
      (∃ text, (Error.duplicateJob id).failure = .conflict text) ∧
      ∃ j, j.id = id ∧ r.replies id os =
        .ok j :: List.replicate (countAsked id os - 1) (.error (.duplicateJob id))) ∧
    ((r.jobs.map Job.id).Nodup ∧ r.tasks.map Task.jobId = r.jobs.map Job.id ∧
      ∀ j ∈ r.jobs, r.get? j.id = some j ∧ checkId j.id = .ok () ∧
        checkCommand j.command = .ok () ∧ (r₀.published j.id past).countP Event.isQueued = 1) ∧
    ∀ os, r.admitted <+: (r.runAll os).admitted ∧
      ∀ id j, r.get? id = some j → ∃ k, (r.runAll os).get? id = some k ∧ k.terms = j.terms := by
  intro r
  have hp₀ : r₀.Paired := paired_new h
  have hp : r.Paired := hp₀.runAll past
  refine ⟨fun command options fresh now =>
      ⟨submit_isOk_iff, fun e he => apply_of_submit_error he, fun j r' hs => ?_⟩,
    fun id os hn ha => ⟨⟨_, rfl⟩, replies_of_free hp hn ha⟩,
    ⟨hp.nodup, hp.ids_eq, fun j hj => ?_⟩, fun os => ?_⟩
  · obtain ⟨id, hc, hi, hn, he⟩ := chooseId_of_submit hs
    have happly : r.apply now (.submit command options fresh) = r' := by rw [apply, hs]; rfl
    obtain ⟨rfl, rfl⟩ := Prod.mk.inj he
    exact ⟨happly, rfl, hn, rfl, get?_enroll_self hn, rfl, hp.task?_eq_none hn, _, rfl⟩
  · have hget := hp.get?_of_mem hj
    obtain ⟨hi, hc⟩ := checked_of_mem h hf hj
    have hcount := countP_isQueued hp₀ j.id past
    have hnone : r₀.get? j.id = none := by rw [get?, jobs_new h, List.find?_nil]
    rw [hnone, show (r₀.runAll past).get? j.id = some j from hget] at hcount
    exact ⟨hget, hi, hc, by simpa using hcount⟩
  · obtain ⟨added, ha, -⟩ := admitted_runAll hp os
    exact ⟨⟨added, ha.symm⟩, fun id j hj => get?_runAll hp hj os⟩

/-- Of three submissions under one id the one with a blank command is invalid, the first of the
others is accepted, although a slot is not free, and the last one finds the id taken. -/
theorem submission_all_or_nothing_of_race :
    let fresh := "67e55044-10b1-426f-9247-bb680e5fe0c8"
    let past : List Timed := [⟨default, .submit ["true"] .none fresh⟩]
    let named : JobOptions := ⟨none, .empty, none, some "a", .empty⟩
    let os : List Timed :=
      [⟨default, .submit [" "] named fresh⟩, ⟨default, .submit ["true"] named fresh⟩,
        ⟨default, .step fresh (.launch (.ok 7))⟩, ⟨default, .submit ["false"] named fresh⟩]
    ∃ r₀, Registry.new ⟨1, 1, 8, "/", "", ""⟩ = some r₀ ∧
      (∀ o ∈ past, ∀ id, o.op.fresh = some id → isUuid id = true) ∧
      (r₀.runAll past).get? "a" = none ∧ countAsked "a" os = 2 ∧
      (∃ j, j.id = "a" ∧
        (r₀.runAll past).replies "a" os = [.ok j, .error (.duplicateJob "a")]) ∧
      ∀ j ∈ (r₀.runAll past).jobs, checkId j.id = .ok () ∧
        (r₀.published j.id past).countP Event.isQueued = 1 := by
  intro fresh past named os
  have hfresh : isUuid fresh = true := by decide
  have hf : ∀ o ∈ past, ∀ id, o.op.fresh = some id → isUuid id = true := by
    simp [past, Operation.fresh, hfresh]
  obtain ⟨r₀, h⟩ : ∃ r₀, Registry.new ⟨1, 1, 8, "/", "", ""⟩ = some r₀ := ⟨_, rfl⟩
  obtain ⟨-, hmany, ⟨-, -, hjobs⟩, -⟩ := submission_all_or_nothing h past hf
  have hn : (r₀.runAll past).get? "a" = none := by
    cases h
    decide +kernel
  have hcount : countAsked "a" os = 2 := by decide +kernel
  obtain ⟨-, j, hj, hreplies⟩ := hmany "a" os hn (hcount ▸ Nat.zero_lt_two)
  rw [hcount] at hreplies
  refine ⟨r₀, h, hf, hn, hcount, ⟨j, hj, hreplies⟩, fun j hj => ?_⟩
  obtain ⟨-, hi, -, hq⟩ := hjobs j hj
  exact ⟨hi, hq⟩

end Registry

end JobConsole
