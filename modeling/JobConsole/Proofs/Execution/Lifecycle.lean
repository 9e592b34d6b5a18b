import JobConsole.Proofs.Execution.Moves

/-! # Course of a job

Every job is queued, started, and then either logs its output and finishes, or reports why it could
not be launched and fails. Its events follow that order under every schedule of tasks and pumps; reading
its output and waiting for its process may fail as well, and then errors come among its lines. Once it
is finished it stays as it is, and nothing is said about it any more but on the side.
-/

namespace JobConsole

/-- The ways in which the kinds of events of one job can follow each other. -/
def InOrder (ks : List EventKind) : Prop :=
  (∃ n, ks <+: .queued :: .started :: (List.replicate n .log ++ [.finished])) ∨
    ks <+: [.queued, .started, .error, .finished]

/-- What events say about a job, side events left out. -/
def course (es : List Event) : List Payload := (es.filter (!·.isSide)).map (·.payload)

theorem course_append (es es' : List Event) : course (es ++ es') = course es ++ course es' := by
  simp only [course, List.filter_append, List.map_append]

theorem course_of_side {es : List Event} (h : ∀ e ∈ es, e.isSide = true) : course es = [] := by
  have he : es.filter (!·.isSide) = [] := List.filter_eq_nil_iff.mpr fun e he => by simp [h e he]
  rw [course, he, List.map_nil]

theorem course_of_changed {j j' : Job} {now : Timestamp} {c : Change} {p : Payload}
    (h : Changed j now c j' p) (id : String) : course [⟨id, now, p⟩] = [p] := by
  cases h <;> rfl

theorem isSide_of_isFinished {e : Event} (h : e.isFinished = true) : e.isSide = false := by
  unfold Event.isFinished at h
  unfold Event.isSide
  cases hp : e.payload <;> simp_all [Payload.kind]

theorem mem_course {e : Event} {es : List Event} (he : e ∈ es) (h : e.isFinished = true) :
    e.payload ∈ course es :=
  List.mem_map_of_mem (List.mem_filter.mpr ⟨he, by simp [isSide_of_isFinished h]⟩)

theorem countP_isFinished (es : List Event) :
    es.countP Event.isFinished = ((course es).map Payload.kind).count .finished := by
  induction es with
  | nil => rfl
  | cons e es ih =>
    rw [← List.singleton_append, course_append, List.map_append, List.count_append, ← ih,
      List.countP_append]
    congr 1
    obtain ⟨i, now, p⟩ := e
    cases p <;> rfl

/-- What is said of a job while it runs: lines, and errors if harm is done to it. -/
def Spoken (harmed : Prop) (said : List Payload) : Prop :=
  ∀ p ∈ said, p.kind = .log ∨ p.kind = .error ∧ harmed

section Spoken

variable {harmed : Prop} {said : List Payload} {p : Payload}

theorem spoken_nil : Spoken harmed [] := List.forall_mem_nil _

theorem Spoken.concat (h : Spoken harmed said) (hp : p.kind = .log ∨ p.kind = .error ∧ harmed) :
    Spoken harmed (said ++ [p]) :=
  List.forall_mem_append.mpr ⟨h, List.forall_mem_singleton.mpr hp⟩

theorem Spoken.weaken (h : Spoken harmed said) : Spoken True said :=
  fun p hp => (h p hp).imp_right fun he => ⟨he.1, trivial⟩

theorem Spoken.not_finished (h : Spoken harmed said) (hp : p ∈ said) : p.kind ≠ .finished := by
  intro hk
  rcases h p hp with hl | ⟨he, -⟩
  · cases hl.symm.trans hk
  · cases he.symm.trans hk

/-- The end of a job is said behind everything that is said while it runs. -/
theorem Spoken.mem_rest {label : String} {command : List String} {pid : Option Nat}
    {rest : List Payload} (h : Spoken harmed said) (hk : p.kind = .finished)
    (hp : p ∈ .queued label command :: .started pid :: (said ++ rest)) : p ∈ rest := by
  rcases List.mem_cons.mp hp with rfl | hp
  · cases hk
  rcases List.mem_cons.mp hp with rfl | hp
  · cases hk
  exact (List.mem_append.mp hp).resolve_left fun hm => h.not_finished hm hk

end Spoken

/-- The task has done everything but leave. -/
def Stage.isOver : Stage → Bool
  | .finished | .gone => true
  | _ => false

namespace Job

/-- How far a job is, by the stage of its task and by what has been said about it. -/
inductive Course (harmed : Prop) (j : Job) : Stage → List Payload → Prop where
  | waiting (h : j.status = .queued) : Course harmed j .waiting [.queued j.label j.command]
  | ready (h : j.status = .queued) : Course harmed j .ready [.queued j.label j.command]
  | reporting {pid : Option Nat} {reason : String} {said : List Payload}
      (h : j.status = .running) (hs : Spoken harmed said) (hn : said = [] ∨ harmed) :
      Course harmed j (.reporting reason) (.queued j.label j.command :: .started pid :: said)
  | failing {pid : Option Nat} {reason : String} {said : List Payload}
      (h : j.status = .running) (hs : Spoken harmed said) (hn : said = [] ∨ harmed) :
      Course harmed j (.failing reason)
        (.queued j.label j.command :: .started pid :: (said ++ [.error reason]))
  | running {pid : Option Nat} {out err : Pump} {exit : Option WaitResult} {said : List Payload}
      (h : j.status = .running) (hs : Spoken harmed said)
      (he : ∀ cause, exit = some (.failed cause) → harmed) :
      Course harmed j (.running out err exit)
        (.queued j.label j.command :: .started pid :: said)
  | ran {pid : Option Nat} {said : List Payload} (h : j.status.isTerminal = true)
      (hs : Spoken harmed said) :
      Course harmed j .finished (.queued j.label j.command :: .started pid ::
        (said ++ [(Event.finished j default).payload]))
  | failed {pid : Option Nat} {reason : String} {said : List Payload}
      (h : j.status.isTerminal = true) (hs : Spoken harmed said) (hn : said = [] ∨ harmed) :
      Course harmed j .finished (.queued j.label j.command :: .started pid ::
        (said ++ [.error reason] ++ [(Event.finished j default).payload]))
  | gone {ps : List Payload} (h : Course harmed j .finished ps) : Course harmed j .gone ps

variable {harmed : Prop} {id : String} {o : Timed} {j j' : Job} {t t' : Task} {stage : Stage}
  {es es' : List Event} {ps : List Payload}

theorem Course.withMetadata (h : j.Course harmed stage ps) (m : Metadata) :
    Course harmed { j with metadata := m } stage ps := by
  induction h with
  | waiting h => exact .waiting h
  | ready h => exact .ready h
  | reporting h hs hn => exact .reporting h hs hn
  | failing h hs hn => exact .failing h hs hn
  | running h hs he => exact .running h hs he
  | ran h hs => exact .ran h hs
  | failed h hs hn => exact .failed h hs hn
  | gone _ ih => exact .gone ih

/-- A step that changes the job, and harms it only where that is said, keeps it on its course. -/
theorem Course.change {stage' : Stage} {a : Action} {c : Change} {now : Timestamp} {p : Payload}
    (h : j.Course harmed stage ps) (hs : Progress stage a stage' (some c))
    (hc : Changed j now c j' p) (ha : a.isFault = true → harmed) :
    j'.Course harmed stage' (ps ++ [p]) := by
  cases hs with
  | refused =>
    cases hc
    cases h with
    | ready _ => exact .reporting rfl spoken_nil (.inl rfl)
  | launched =>
    cases hc
    cases h with
    | ready _ => exact .running rfl spoken_nil nofun
  | reported =>
    cases hc
    cases h with
    | reporting hr hsaid hn => exact .failing hr hsaid hn
  | failed =>
    have ht := hc.isTerminal
    cases hc with
    | finished _ hj =>
      subst hj
      cases h with
      | failing _ hsaid hn => exact .failed ht hsaid hn
  | logged =>
    cases hc
    cases h with
    | running hr hsaid he => exact .running hr (hsaid.concat (.inl rfl)) he
  | unread =>
    cases hc
    cases h with
    | running hr hsaid he => exact .running hr (hsaid.concat (.inr ⟨rfl, ha rfl⟩)) he
  | ended =>
    have ht := hc.isTerminal
    cases hc with
    | finished _ hj =>
      subst hj
      cases h with
      | running _ hsaid _ => exact .ran ht hsaid

theorem Course.work {stage' : Stage} {a : Action} (h : j.Course harmed stage ps)
    (hs : Progress stage a stage' none) (ha : a.isFault = true → harmed) :
    j.Course harmed stage' ps := by
  cases hs with
  | worked =>
    cases h with
    | running hr hsaid he => exact .running hr hsaid he
  | exited =>
    cases h with
    | running hr hsaid _ => exact .running hr hsaid nofun
  | lost =>
    cases h with
    | running hr hsaid _ => exact .running hr hsaid fun _ _ => ha rfl
  | givenUp =>
    cases h with
    | running hr hsaid he => exact .reporting hr hsaid (.inr (he _ rfl))

theorem Course.fits {stage' : Stage} {a : Action} {c : Change} (h : j.Course harmed stage ps)
    (hs : Progress stage a stage' (some c)) : c.fits j.status = true := by
  cases hs <;> cases h <;> simp_all [Change.fits]

/-- No move leads a job off its course. -/
theorem Course.move (h : j.Course harmed t.stage (course es)) (hm : Moves id o j t j' t' es')
    (hf : ∀ a, o.op = .step id a → a.isFault = true → harmed) :
    j'.Course harmed t'.stage (course (es ++ es')) := by
  obtain ⟨i, slot, stage⟩ := t
  rw [course_append]
  generalize course es = ps at h ⊢
  have hnil : ps ++ course [] = ps := List.append_nil ps
  cases hm with
  | rests hes =>
    rw [course_of_side hes, List.append_nil]
    exact h.withMetadata _
  | acquired hs =>
    rw [hs] at h
    rw [hnil]
    cases h with
    | waiting hq => exact .ready hq
  | left hs =>
    rw [hs] at h
    rw [hnil]
    exact .gone h
  | worked ho hs =>
    rw [hnil]
    exact h.work hs (hf _ ho)
  | changed ho hs hc =>
    rw [course_of_changed hc]
    exact h.change hs hc (hf _ ho)
  | refused _ hs hc => exact absurd (h.fits hs) (by simp [hc])

/-- What is said comes between the start and the end. -/
theorem Course.framed (h : j.Course harmed stage ps) :
    ∃ said, Spoken True said ∧
      ps.map Payload.kind <+: .queued :: .started :: (said.map Payload.kind ++ [.finished]) := by
  induction h with
  | waiting _ | ready _ => exact ⟨[], spoken_nil, [.started, .finished], rfl⟩
  | reporting _ hs _ | running _ hs _ =>
    refine ⟨_, hs.weaken, [.finished], ?_⟩
    simp [Payload.kind]
  | @failing _ reason said _ hs _ =>
    refine ⟨_, hs.weaken.concat (p := .error reason) (.inr ⟨rfl, trivial⟩), [.finished], ?_⟩
    simp [Payload.kind]
  | ran _ hs =>
    refine ⟨_, hs.weaken, [], ?_⟩
    simp [Payload.kind, Event.finished]
  | @failed _ reason said _ hs _ =>
    refine ⟨_, hs.weaken.concat (p := .error reason) (.inr ⟨rfl, trivial⟩), [], ?_⟩
    simp [Payload.kind, Event.finished]
  | gone _ ih => exact ih

/-- Where no harm is done, only lines are said, or only why the job could not be launched. -/
theorem Course.inOrder (h : j.Course harmed stage ps) (hh : ¬harmed) :
    InOrder (ps.map Payload.kind) := by
  have hlog {said : List Payload} (hs : Spoken harmed said) :
      said.map Payload.kind = List.replicate said.length .log :=
    List.eq_replicate_iff.mpr ⟨List.length_map .., fun k hk => by
      obtain ⟨p, hp, rfl⟩ := List.mem_map.mp hk
      exact (hs p hp).resolve_right fun h => hh h.2⟩
  induction h with
  | waiting _ | ready _ => exact .inr ⟨[.started, .error, .finished], rfl⟩
  | reporting _ _ hn =>
    obtain rfl := hn.resolve_right hh
    exact .inr ⟨[.error, .finished], rfl⟩
  | failing _ _ hn =>
    obtain rfl := hn.resolve_right hh
    exact .inr ⟨[.finished], rfl⟩
  | @running _ _ _ _ said _ hs _ =>
    refine .inl ⟨said.length, [.finished], ?_⟩
    simp [hlog hs, Payload.kind]
  | @ran _ said _ hs =>
    refine .inl ⟨said.length, [], ?_⟩
    simp [hlog hs, Payload.kind, Event.finished]
  | failed _ _ hn =>
    obtain rfl := hn.resolve_right hh
    exact .inr ⟨[], rfl⟩
  | gone _ ih => exact ih

theorem Course.of_finished {p : Payload} (h : j.Course harmed stage ps) (hp : p ∈ ps)
    (hk : p.kind = .finished) :
    stage.isOver = true ∧ j.status.isTerminal = true ∧ p = (Event.finished j default).payload := by
  induction h with
  | waiting _ | ready _ =>
    obtain rfl := List.mem_singleton.mp hp
    cases hk
  | reporting _ hs _ | running _ hs _ =>
    rw [← List.append_nil (_ :: _)] at hp
    cases hs.mem_rest hk hp
  | failing _ hs _ =>
    obtain rfl := List.mem_singleton.mp (hs.mem_rest hk hp)
    cases hk
  | ran ht hs =>
    obtain rfl := List.mem_singleton.mp (hs.mem_rest hk hp)
    exact ⟨rfl, ht, rfl⟩
  | failed ht hs _ =>
    rw [List.append_assoc] at hp
    rcases List.mem_cons.mp (hs.mem_rest hk hp) with rfl | hp
    · cases hk
    · obtain rfl := List.mem_singleton.mp hp
      exact ⟨rfl, ht, rfl⟩
  | gone _ ih => exact ⟨rfl, (ih hp).2⟩

theorem Course.of_isTerminal (h : j.Course harmed stage ps) (ht : j.status.isTerminal = true) :
    stage.isOver = true ∧ (Event.finished j default).payload ∈ ps := by
  induction h with
  | waiting h | ready h | reporting h | failing h | running h =>
    rw [h] at ht
    cases ht
  | ran _ => exact ⟨rfl, by simp⟩
  | failed _ => exact ⟨rfl, by simp⟩
  | gone _ ih => exact ⟨rfl, ih.2⟩

end Job

theorem Moves.of_isOver {id : String} {o : Timed} {j j' : Job} {t t' : Task} {es : List Event}
    (h : Moves id o j t j' t' es) (ho : t.stage.isOver = true) :
    t'.stage.isOver = true ∧ (∃ m, j' = { j with metadata := m }) ∧ ∀ e ∈ es, e.isSide = true := by
  obtain ⟨i, slot, stage⟩ := t
  cases h with
  | rests hes => exact ⟨ho, ⟨_, rfl⟩, hes⟩
  | acquired hs =>
    rw [hs] at ho
    cases ho
  | left _ => exact ⟨rfl, ⟨_, rfl⟩, List.forall_mem_nil _⟩
  | worked _ hs | changed _ hs _ | refused _ hs _ => cases hs <;> cases ho

namespace Registry

variable {r : Registry} {id : String} {j : Job} {t : Task} {os : List Timed}

def Ended (r : Registry) (id : String) : Prop :=
  ∃ j, r.get? id = some j ∧ j.status.isTerminal = true

theorem rests_of_isOver (hj : r.get? id = some j) (ht : r.task? id = some t)
    (ho : t.stage.isOver = true) (hd : ∀ o ∈ os, o.op.isDirect = false) :
    ∃ m, (r.runAll os).get? id = some { j with metadata := m } ∧
      course (r.published id os) = [] := by
  obtain ⟨k, u, hk, -, -, ⟨m, rfl⟩, hes⟩ := follow hj ht
    (P := fun k u es => u.stage.isOver = true ∧ (∃ m, k = { j with metadata := m }) ∧
      ∀ e ∈ es, e.isSide = true)
    (by
      rintro o k u k' u' es es' ⟨hu, ⟨m, rfl⟩, hes⟩ hm
      obtain ⟨hu', ⟨m', rfl⟩, hes'⟩ := hm.of_isOver hu
      exact ⟨hu', ⟨m', rfl⟩, List.forall_mem_append.mpr ⟨hes, hes'⟩⟩)
    hd ⟨ho, ⟨j.metadata, rfl⟩, List.forall_mem_nil _⟩
  exact ⟨m, hk, course_of_side hes⟩

theorem course_enroll {r : Registry} {harmed : Prop} (command : List String) (options : JobOptions)
    (now : Timestamp) :
    (r.enroll id command options now).1.Course harmed (Task.new id r.takeSlot.1).stage
      (course [.queued (r.enroll id command options now).1 now]) := by
  cases hs : r.takeSlot.1 with
  | awaited => exact .waiting rfl
  | _ => exact .ready rfl

/-- Reading the output of the job or waiting for its process fails. -/
def Harmed (id : String) (os : List Timed) : Prop :=
  ∃ o ∈ os, ∃ a, o.op = .step id a ∧ a.isFault = true

theorem course_runAll {c : JobsConfig} {r₀ : Registry} (h : Registry.new c = some r₀)
    (hd : ∀ o ∈ os, o.op.isDirect = false) (id : String) :
    ((r₀.runAll os).Lacks id ∧ r₀.published id os = []) ∨
      ∃ j t, (r₀.runAll os).get? id = some j ∧ (r₀.runAll os).task? id = some t ∧
        j.Course (Harmed id os) t.stage (course (r₀.published id os)) := by
  refine holds_of_moves (P := fun j t es => j.Course (Harmed id os) t.stage (course es))
    (lacks_new h id) ?_ (fun ho hc hm => hc.move hm fun a hop ha => ⟨_, ho, a, hop, ha⟩) hd
  intro past command options now _
  exact course_enroll command options now

theorem countP_isFinished_le {c : JobsConfig} {r₀ : Registry} (h : Registry.new c = some r₀)
    (hd : ∀ o ∈ os, o.op.isDirect = false) (id : String) :
    (r₀.published id os).countP Event.isFinished ≤ 1 := by
  rw [countP_isFinished]
  rcases course_runAll h hd id with ⟨-, hes⟩ | ⟨j, t, -, -, hc⟩
  · rw [hes]
    exact Nat.zero_le 1
  · obtain ⟨said, hs, hp⟩ := hc.framed
    have hnone : (said.map Payload.kind).count .finished = 0 := by
      refine List.count_eq_zero.mpr fun hm => ?_
      obtain ⟨p, hp, hk⟩ := List.mem_map.mp hm
      exact hs.not_finished hp hk
    refine Nat.le_trans (hp.sublist.count_le _) ?_
    simp [hnone]

theorem ended_of_finished {c : JobsConfig} {r₀ : Registry} {e : Event} (h : Registry.new c = some r₀)
    (hd : ∀ o ∈ os, o.op.isDirect = false) (he : e ∈ r₀.published id os) (hf : e.isFinished = true) :
    (r₀.runAll os).Ended id := by
  rcases course_runAll h hd id with ⟨-, hes⟩ | ⟨j, t, hj, -, hc⟩
  · rw [hes] at he
    cases he
  · obtain ⟨-, ht, -⟩ := hc.of_finished (mem_course he hf) (by simpa [Event.isFinished] using hf)
    exact ⟨j, hj, ht⟩

/-- A job at its end has been said to be finished, and from then on only its metadata changes. -/
theorem rests_of_isTerminal {c : JobsConfig} {r₀ : Registry} (h : Registry.new c = some r₀)
    (hd : ∀ o ∈ os, o.op.isDirect = false) (hj : (r₀.runAll os).get? id = some j)
    (ht : j.status.isTerminal = true) :
    (∃ e ∈ r₀.published id os, e.isFinished = true) ∧
      ∀ rest : List Timed, (∀ o ∈ rest, o.op.isDirect = false) →
        ∃ m, ((r₀.runAll os).runAll rest).get? id = some { j with metadata := m } := by
  rcases course_runAll h hd id with ⟨⟨hn, -⟩, -⟩ | ⟨k, t, hk, htask, hc⟩
  · cases hn.symm.trans hj
  obtain rfl := Option.some.inj (hj.symm.trans hk)
  obtain ⟨hover, hp⟩ := hc.of_isTerminal ht
  obtain ⟨e, he, hpayload⟩ := List.mem_map.mp hp
  refine ⟨⟨e, List.mem_of_mem_filter he, by simp [Event.isFinished, hpayload, Event.finished, Payload.kind]⟩,
    fun rest hrest => ?_⟩
  obtain ⟨m, hm, -⟩ := rests_of_isOver hj htask hover hrest
  exact ⟨m, hm⟩

/-- The events of a job come in order, and where reading or waiting fails, errors come among its lines
only. At most one of them says that it is finished, and from then on that event says what the record
says: nothing is logged or reported any more. -/
theorem lifecycle_in_order {c : JobsConfig} {r₀ : Registry} (h : Registry.new c = some r₀)
    (os : List Timed) (hd : ∀ o ∈ os, o.op.isDirect = false) (id : String) :
    let kinds := (course (r₀.published id os)).map Payload.kind
    ((∀ o ∈ os, ∀ a, o.op = .step id a → a.isFault = false) → InOrder kinds) ∧
    (∃ said, (∀ k ∈ said, k = .log ∨ k = .error) ∧
      kinds <+: .queued :: .started :: (said ++ [.finished])) ∧
    (r₀.published id os).countP Event.isFinished ≤ 1 ∧
    ∀ first rest, os = first ++ rest → ∀ e ∈ r₀.published id first, e.isFinished = true →
      course ((r₀.runAll first).published id rest) = [] ∧
      ∃ j k, (r₀.runAll first).get? id = some j ∧ (r₀.runAll os).get? id = some k ∧
        k.log = j.log ∧ e.payload = (Event.finished k e.timestamp).payload := by
  intro kinds
  refine ⟨fun hf => ?_, ?_, countP_isFinished_le h hd id, ?_⟩
  · have hh : ¬Harmed id os := by
      rintro ⟨o, ho, a, hop, ha⟩
      simp [hf o ho a hop] at ha
    rcases course_runAll h hd id with ⟨-, hes⟩ | ⟨j, t, -, -, hc⟩
    · simp only [kinds, hes]
      exact .inr List.nil_prefix
    · exact hc.inOrder hh
  · rcases course_runAll h hd id with ⟨-, hes⟩ | ⟨j, t, -, -, hc⟩
    · simp only [kinds, hes]
      exact ⟨[], List.forall_mem_nil _, List.nil_prefix⟩
    · obtain ⟨said, hs, hp⟩ := hc.framed
      refine ⟨said.map Payload.kind, fun k hk => ?_, hp⟩
      obtain ⟨p, hp, rfl⟩ := List.mem_map.mp hk
      exact (hs p hp).imp_right And.left
  · rintro first rest rfl e he hf
    obtain ⟨hfirst, hrest⟩ := List.forall_mem_append.mp hd
    rcases course_runAll h hfirst id with ⟨-, hes⟩ | ⟨j, t, hj, ht, hc⟩
    · rw [hes] at he
      cases he
    · obtain ⟨hover, -, hp⟩ :=
        hc.of_finished (mem_course he hf) (by simpa [Event.isFinished] using hf)
      obtain ⟨m, hk, hnil⟩ := rests_of_isOver hj ht hover hrest
      rw [runAll_append]
      exact ⟨hnil, j, _, hj, hk, rfl, hp⟩

/-- Output that stays open is cut off after the exit, and nothing is said about the job later. -/
theorem lifecycle_in_order_of_open_output :
    let os : List Timed :=
      [⟨default, .submit ["true"] .none "a"⟩, ⟨default, .step "a" (.launch (.ok 7))⟩,
        ⟨default, .step "a" (.read .stdout [104, 105, 10])⟩, ⟨default, .step "a" (.pump .stdout)⟩,
        ⟨default, .step "a" (.exit ⟨some 0, none⟩)⟩, ⟨default, .step "a" (.abort .stdout)⟩,
        ⟨default, .step "a" (.pump .stdout)⟩, ⟨default, .step "a" (.abort .stderr)⟩,
        ⟨default, .step "a" .finish⟩]
    ∃ r₀, Registry.new ⟨1, 1, 8, "/", "", ""⟩ = some r₀ ∧ (∀ o ∈ os, o.op.isDirect = false) ∧
      (course (r₀.published "a" os)).map Payload.kind = [.queued, .started, .log, .finished] ∧
      InOrder ((course (r₀.published "a" os)).map Payload.kind) ∧
      ∀ rest : List Timed, (∀ o ∈ rest, o.op.isDirect = false) →
        course ((r₀.runAll os).published "a" rest) = [] := by
  intro os
  have hd : ∀ o ∈ os, o.op.isDirect = false := by simp [os, Operation.isDirect]
  obtain ⟨r₀, h⟩ : ∃ r₀, Registry.new ⟨1, 1, 8, "/", "", ""⟩ = some r₀ := ⟨_, rfl⟩
  refine ⟨r₀, h, hd, ?_, (lifecycle_in_order h os hd "a").1 ?_, fun rest hr => ?_⟩
  · cases h
    rfl
  · simp [os, Action.isFault]
  · have hall := List.forall_mem_append.mpr ⟨hd, hr⟩
    obtain ⟨e, he, hf⟩ : ∃ e ∈ r₀.published "a" os, e.isFinished = true := by
      cases h
      exact ⟨_, List.mem_of_mem_getLast? rfl, rfl⟩
    exact ((lifecycle_in_order h (os ++ rest) hall "a").2.2.2 os rest rfl e he hf).1

/-- Reading the one output fails, and then waiting does. -/
example :
    let os : List Timed :=
      [⟨default, .submit ["true"] .none "a"⟩, ⟨default, .step "a" (.launch (.ok 7))⟩,
        ⟨default, .step "a" (.failRead .stdout "reset")⟩, ⟨default, .step "a" (.failWait "gone")⟩,
        ⟨default, .step "a" (.endOutput .stderr)⟩, ⟨default, .step "a" (.pump .stderr)⟩,
        ⟨default, .step "a" .finish⟩, ⟨default, .step "a" .report⟩, ⟨default, .step "a" .fail⟩]
    (Registry.new ⟨1, 1, 8, "/", "", ""⟩).map (fun r₀ =>
        (course (r₀.published "a" os)).map Payload.kind) =
      some [.queued, .started, .error, .error, .finished] :=
  rfl

end Registry

end JobConsole
