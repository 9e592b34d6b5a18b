import JobConsole.Proofs.Registry.Announcing
import JobConsole.Proofs.Registry.Metadata

/-! # Completion handler at work

The handler takes up every job that is said to be finished since it was set up, each once and in
that order, no matter what happens while it searches for the artifacts of another one. What it
causes itself is never the end of a job, so it never feeds itself. A handler that works off all it
is told of at one go, as that of a console does, is one of those (`Console.exists_depot_run`).
-/

namespace JobConsole

def finishedIds (es : List Event) : List String := (es.filter Event.isFinished).map Event.jobId

theorem finishedIds_append (es es' : List Event) :
    finishedIds (es ++ es') = finishedIds es ++ finishedIds es' := by
  simp only [finishedIds, List.filter_append, List.map_append]

theorem mem_finishedIds_iff {id : String} {es : List Event} :
    id ∈ finishedIds es ↔ ∃ e ∈ es.filter (·.jobId = id), e.isFinished = true := by
  simp only [finishedIds, List.mem_map, List.mem_filter, decide_eq_true_eq]
  constructor
  · rintro ⟨e, ⟨he, hf⟩, rfl⟩
    exact ⟨e, ⟨he, rfl⟩, hf⟩
  · rintro ⟨e, ⟨he, rfl⟩, hf⟩
    exact ⟨e, ⟨he, hf⟩, rfl⟩

theorem count_finishedIds (id : String) (es : List Event) :
    (finishedIds es).count id = (es.filter (·.jobId = id)).countP Event.isFinished := by
  rw [finishedIds, List.count, List.countP_map, List.countP_filter, List.countP_filter]
  refine List.countP_congr fun e _ => ?_
  simp [and_comm]

def Phase.jobs : Phase → List String
  | idle => []
  | told id => [id]
  | found f => [f.jobId]

namespace Handling

def jobs (w : Handling) : List String := w.resolved.map Finding.jobId ++ w.phase.jobs

variable {w : Handling} {r : Registry} {id : String} {files : FileSystem} {found : List Artifact}

theorem look_told (hp : w.phase = .told id) (hf : r.findArtifacts files id = .ok found) :
    w.look r files =
      if found = [] then { w with phase := .idle, resolved := w.resolved ++ [⟨id, []⟩] }
      else { w with phase := .found ⟨id, found⟩ } := by
  cases found <;> simp [look, hp, hf]

theorem look_of_not_told (hp : ∀ id, w.phase ≠ .told id) : w.look r files = w := by
  unfold look
  split
  next id hid => exact absurd hid (hp id)
  next => rfl

theorem subscription_look : (w.look r files).subscription = w.subscription := by
  unfold look
  split
  · split <;> rfl
  · rfl

theorem subscription_finish : w.finish.subscription = w.subscription := by
  unfold finish
  split <;> rfl

theorem jobs_finish : w.finish.jobs = w.jobs := by
  unfold finish
  split
  next f hf => simp [jobs, hf, Phase.jobs]
  next => rfl

theorem jobs_look (hf : ∀ id, w.phase = .told id → ∃ found, r.findArtifacts files id = .ok found) :
    (w.look r files).jobs = w.jobs := by
  by_cases hp : ∃ id, w.phase = .told id
  · obtain ⟨id, hp⟩ := hp
    obtain ⟨found, hr⟩ := hf id hp
    rw [look_told hp hr]
    split <;> simp [jobs, hp, Phase.jobs]
  · rw [look_of_not_told fun id hid => hp ⟨id, hid⟩]

theorem take_of_nil (hq : (r.bus.tryReceive w.subscription).1 = none) : w.take r = w := by
  unfold take
  rw [hq]
  split
  next he => cases he
  next => rfl

theorem take_of_busy (hp : w.phase ≠ .idle) : w.take r = w := by
  unfold take
  split
  next h _ => exact absurd h hp
  next => rfl

theorem take_of_cons {e : Event} (hp : w.phase = .idle)
    (he : (r.bus.tryReceive w.subscription).1 = some e) :
    w.take r = { w with phase := if e.isFinished then .told e.jobId else .idle } := by
  simp [take, hp, he]

end Handling

namespace Depot

variable {d : Depot} {a : Act} {as front rest : List Act} {w : Handling} {f : Finding} {id : String}
  {q : List Event}

/-! ## What the handler is told -/

/-- The handle follows every job, and these events wait for it. -/
def Awaits (d : Depot) (s : Nat) (q : List Event) : Prop :=
  d.registry.bus.receiver? s = some ⟨s, .wildcard, q, true, true⟩

theorem foreign_of_op? (hw : d.handling = some w) (ha : a ≠ .take) {o : Timed}
    (ho : d.op? a = some o) (u : Bus.Use) : o.op ≠ .use w.subscription u := by
  intro hu
  cases a with
  | operate =>
    obtain ⟨hal, ⟨⟩⟩ := Option.ite_none_right_eq_some.mp ho
    simp [hu, allows, hw] at hal
  | tell k now | finish now =>
    obtain ⟨f, -, rfl⟩ := of_announcing ho
    cases hu
  | attach =>
    obtain ⟨-, ⟨⟩⟩ := Option.ite_none_right_eq_some.mp ho
    cases hu
  | take => exact ha rfl
  | ask | look => cases ho

theorem said_singleton (d : Depot) (a : Act) :
    d.said [a] = (d.registry.busHistory (d.op? a).toList).flatMap Bus.Act.events := by
  rw [said, history, history, List.append_nil]

/-- Whatever others do, the handler is told all that they publish. -/
theorem Awaits.act (h : d.Awaits w.subscription q) (hb : d.registry.bus.WellFormed)
    (hw : d.handling = some w) (ha : a ≠ .take) :
    (d.act a).Awaits w.subscription (q ++ d.said [a]) := by
  have hforeign : ∀ x ∈ d.registry.busHistory (d.op? a).toList,
      x.Foreign w.subscription ∧ x.isShutDown = false := by
    intro x hx
    cases ho : d.op? a with
    | none =>
      rw [ho] at hx
      cases hx
    | some o =>
      rw [ho, Option.toList_some, Registry.busHistory, Registry.busHistory, List.append_nil] at hx
      obtain ⟨hs, hu⟩ := (Registry.effect d.registry o.now o.op).of_mem hx
      exact ⟨fun u he => foreign_of_op? hw ha ho u (hu _ u he), hs⟩
  have hq := hb.receiver?_acts h hforeign
  rw [Awaits, said_singleton, registry_act, Registry.bus_runAll, hq]
  simp [Receiver.withQueue, Topic.covers]

theorem op?_take (hw : d.handling = some w) (hp : w.phase = .idle) :
    d.op? .take = some ⟨default, .use w.subscription .receive⟩ := by
  obtain ⟨s, phase, resolved⟩ := w
  obtain rfl := hp
  simp only [op?, hw]

theorem op?_take_of_busy (hw : d.handling = some w) (hp : w.phase ≠ .idle) :
    d.op? .take = none := by
  simp only [op?, hw]
  split
  next he => exact absurd (congrArg Handling.phase (Option.some.inj he)) hp
  next => rfl

theorem said_take (hw : d.handling = some w) : d.said [.take] = [] := by
  rw [said_singleton]
  by_cases hp : w.phase = .idle
  · rw [op?_take hw hp]
    rfl
  · rw [op?_take_of_busy hw hp]
    rfl

theorem Awaits.take {e : Event} (h : d.Awaits w.subscription (e :: q)) (hw : d.handling = some w)
    (hp : w.phase = .idle) :
    (d.act .take).Awaits w.subscription q ∧ (d.act .take).handling =
      some { w with phase := if e.isFinished then .told e.jobId else .idle } := by
  have htry := Bus.tryReceive_cons h rfl
  constructor
  · simp only [Awaits, registry_act, op?_take hw hp, Option.toList_some, Registry.runAll,
      Registry.apply, Bus.use, htry]
    exact Bus.receiver?_updateReceiver_withQueue h q
  · simp only [Depot.act, hw, Option.map_some]
    rw [Handling.take_of_cons hp (by rw [htry])]

theorem Awaits.take_nil (h : d.Awaits w.subscription []) (hw : d.handling = some w) :
    d.act .take = d := by
  have htry := Bus.tryReceive_nil h rfl
  have hregistry : (d.act .take).registry = d.registry := by
    rw [registry_act]
    by_cases hp : w.phase = .idle
    · simp only [op?_take hw hp, Option.toList_some, Registry.runAll, Registry.apply, Bus.use,
        htry]
    · rw [op?_take_of_busy hw hp]
      rfl
  have hhandling : (d.act .take).handling = d.handling := by
    simp only [Depot.act, hw, Option.map_some]
    rw [Handling.take_of_nil (by rw [htry])]
  exact congrArg₂ (Depot.mk · d.finds ·) hregistry hhandling

theorem act_take_of_busy (hw : d.handling = some w) (hp : w.phase ≠ .idle) : d.act .take = d := by
  have hregistry : (d.act .take).registry = d.registry := by
    rw [registry_act, op?_take_of_busy hw hp]
    rfl
  have hhandling : (d.act .take).handling = d.handling := by
    simp only [act, hw, Option.map_some]
    rw [Handling.take_of_busy hp]
  exact congrArg₂ (Depot.mk · d.finds ·) hregistry hhandling

/-! ## What the handler has done -/

/-- The rest of a run begins with a search for the artifacts of a job that has been said to be
finished. -/
structure Search (d : Depot) (front rest : List Act) (f : Finding) : Prop where
  finished : ∃ e ∈ d.published f.jobId front, e.isFinished = true
  found : ∃ files back j, rest = .look files :: back ∧
    (d.run front).registry.get? f.jobId = some j ∧ j.status.isTerminal = true ∧
    f.artifacts = (Resolved.resolve files j).map (·.artifact)

/-- What was found, if anything, has been announced since the search. -/
def Announced (d : Depot) (front rest : List Act) (f : Finding) : Prop :=
  f.artifacts ≠ [] →
    ∃ e ∈ (d.run front).published f.jobId rest, e.payload = .artifactReady f.artifacts

theorem Search.append (h : d.Search front rest f) (as : List Act) :
    d.Search front (rest ++ as) f := by
  obtain ⟨hf, files, back, j, rfl, hj⟩ := h
  exact ⟨hf, files, back ++ as, j, rfl, hj⟩

theorem Announced.append (h : d.Announced front rest f) (as : List Act) :
    d.Announced front (rest ++ as) f := by
  intro hn
  obtain ⟨e, he, hp⟩ := h hn
  exact ⟨e, published_append .. ▸ List.mem_append_left _ he, hp⟩

/-- Every finding of the handler comes from a search of its own, and those it is done with are
announced. -/
structure Accounted (d : Depot) (as : List Act) (w : Handling) : Prop where
  searched : ∀ f, w.phase.finding? = some f →
    ∃ front rest, as = front ++ rest ∧ d.Search front rest f
  resolved : ∀ f ∈ w.resolved, ∃ front rest, as = front ++ rest ∧ d.Search front rest f ∧
    d.Announced front rest f

/-- The handler has taken up what it was told of, and is told everything. -/
structure Attended (d : Depot) (as : List Act) (w : Handling) : Prop where
  handling : (d.run as).handling = some w
  queue : ∃ q, (d.run as).Awaits w.subscription q ∧
    finishedIds (d.said as) = w.jobs ++ finishedIds q
  accounted : d.Accounted as w

/-- A handler that is idle, with nothing in its queue, has resolved all the jobs it was told of. -/
theorem Attended.resolved_eq (h : d.Attended as w) (hp : w.phase = .idle)
    (hq : (d.run as).registry.bus.queueOf w.subscription = []) :
    w.resolved.map Finding.jobId = finishedIds (d.said as) := by
  obtain ⟨q, hr, hall⟩ := h.queue
  obtain rfl : q = [] := (Bus.queueOf_eq hr).symm.trans hq
  simpa [Handling.jobs, hp, Phase.jobs, finishedIds] using hall.symm

/-- Jobs that are said to be finished are at their end. -/
def Truthful (d : Depot) (as : List Act) : Prop :=
  ∀ id, (∃ e ∈ d.published id as, e.isFinished = true) → (d.run as).registry.Ended id

theorem Accounted.append (h : d.Accounted as w) (as' : List Act) : d.Accounted (as ++ as') w where
  searched f hf := by
    obtain ⟨front, rest, rfl, hs⟩ := h.searched f hf
    exact ⟨front, rest ++ as', List.append_assoc .., hs.append as'⟩
  resolved f hf := by
    obtain ⟨front, rest, rfl, hs, ha⟩ := h.resolved f hf
    exact ⟨front, rest ++ as', List.append_assoc .., hs.append as', ha.append as'⟩

theorem published_of_announce {now : Timestamp} {artifacts : List Artifact}
    (ho : d.op? a = some ⟨now, .announce id artifacts⟩) (hs : (d.registry.get? id).isSome) :
    d.published id [a] = [⟨id, now, .artifactReady artifacts⟩] := by
  rw [published, said_singleton, ho]
  simp [Registry.busHistory, Registry.busActs, Registry.ifKnown, hs, Bus.Act.events]

theorem Attended.goesOn (h : d.Attended as w) (hb : (d.run as).registry.bus.WellFormed)
    (ha : a ≠ .take) {w' : Handling} (hw : ((d.run as).act a).handling = some w')
    (hs : w'.subscription = w.subscription) (hj : w'.jobs = w.jobs)
    (hacc : d.Accounted (as ++ [a]) w') : d.Attended (as ++ [a]) w' := by
  obtain ⟨hw', ⟨q, hr, hq⟩, -⟩ := h
  have hrun : d.run (as ++ [a]) = (d.run as).act a := run_append ..
  refine ⟨hrun ▸ hw, ⟨q ++ (d.run as).said [a], ?_, ?_⟩, hacc⟩
  · rw [hrun, hs]
    exact hr.act hb hw' ha
  · rw [said_append, finishedIds_append, hq, hj, finishedIds_append, List.append_assoc]

theorem Attended.take (h : d.Attended as w) : ∃ w', d.Attended (as ++ [.take]) w' := by
  obtain ⟨hw, ⟨q, hr, hq⟩, hacc⟩ := h
  have hrun : d.run (as ++ [.take]) = (d.run as).act .take := run_append ..
  have hsaid : d.said (as ++ [.take]) = d.said as := by
    rw [said_append, said_take hw, List.append_nil]
  -- A handler that is busy, or has nothing waiting for it, takes nothing.
  have rests (hd : (d.run as).act .take = d.run as) : ∃ w', d.Attended (as ++ [.take]) w' :=
    ⟨w, by rw [hrun, hd, hw], ⟨q, by rwa [hrun, hd], by rw [hsaid, hq]⟩, hacc.append _⟩
  by_cases hp : w.phase = .idle
  · cases q with
    | nil => exact rests (hr.take_nil hw)
    | cons e q =>
      obtain ⟨hr', hw'⟩ := hr.take hw hp
      refine ⟨{ w with phase := if e.isFinished then .told e.jobId else .idle }, hrun ▸ hw',
        ⟨q, hrun ▸ hr', ?_⟩, ?_, (hacc.append _).resolved⟩
      · rw [hsaid, hq]
        by_cases hf : e.isFinished = true <;> simp [Handling.jobs, hp, Phase.jobs, finishedIds, hf]
      · intro f hf
        by_cases he : e.isFinished = true <;> simp [he, Phase.finding?] at hf
  · exact rests (act_take_of_busy hw hp)

theorem Attended.search (h : d.Attended as w) (ht : d.Truthful as) (hp : w.phase = .told id)
    (files : FileSystem) :
    ∃ found, (d.run as).registry.findArtifacts files id = .ok found ∧
      d.Search as [.look files] ⟨id, found⟩ := by
  obtain ⟨-, ⟨q, -, hq⟩, -⟩ := h
  have hid : id ∈ finishedIds (d.said as) := by
    rw [hq]
    simp [Handling.jobs, hp, Phase.jobs]
  have hfin := mem_finishedIds_iff.mp hid
  obtain ⟨j, hj, hend⟩ := ht id hfin
  refine ⟨(Resolved.resolve files j).map (·.artifact), ?_, hfin, files, [], j, rfl, hj, hend, rfl⟩
  simp [Registry.findArtifacts, hj, hend]

theorem Attended.look (h : d.Attended as w) (hb : (d.run as).registry.bus.WellFormed)
    (ht : d.Truthful as) (files : FileSystem) :
    d.Attended (as ++ [.look files]) (w.look (d.run as).registry files) := by
  have hw : ((d.run as).act (.look files)).handling = some (w.look (d.run as).registry files) := by
    simp only [Depot.act, h.handling, Option.map_some]
  refine h.goesOn hb (by simp) hw Handling.subscription_look
    (Handling.jobs_look fun id hp => (h.search ht hp files).imp fun _ h => h.1) ?_
  have hacc := h.accounted.append [.look files]
  by_cases hp : ∃ id, w.phase = .told id
  · obtain ⟨id, hp⟩ := hp
    obtain ⟨found, hfound, hs⟩ := h.search ht hp files
    rw [Handling.look_told hp hfound]
    split
    next hnil =>
      subst hnil
      refine ⟨(fun g hg => by cases hg), fun f hf => ?_⟩
      rcases List.mem_append.mp hf with hf | hf
      · exact hacc.resolved f hf
      · obtain rfl := List.mem_singleton.mp hf
        exact ⟨as, _, rfl, hs, fun hn => absurd rfl hn⟩
    next =>
      refine ⟨fun f hf => ?_, hacc.resolved⟩
      obtain rfl := Option.some.inj hf
      exact ⟨as, _, rfl, hs⟩
  · rw [Handling.look_of_not_told fun id hid => hp ⟨id, hid⟩]
    exact hacc

theorem Attended.finish (h : d.Attended as w) (hb : (d.run as).registry.bus.WellFormed)
    (ht : d.Truthful as) (now : Timestamp) : d.Attended (as ++ [.finish now]) w.finish := by
  have hw := h.handling
  have hacc := h.accounted.append [.finish now]
  refine h.goesOn hb (by simp) (by simp only [Depot.act, hw, Option.map_some])
    Handling.subscription_finish Handling.jobs_finish ?_
  unfold Handling.finish
  split
  next f hf =>
    refine ⟨(fun g hg => by cases hg), fun g hg => ?_⟩
    rcases List.mem_append.mp hg with hg | hg
    · exact hacc.resolved g hg
    obtain rfl := List.mem_singleton.mp hg
    obtain ⟨front, rest, rfl, hs⟩ := h.accounted.searched g (by rw [hf]; rfl)
    refine ⟨front, rest ++ [.finish now], List.append_assoc .., hs.append _, fun _ => ?_⟩
    obtain ⟨e, he, hfin⟩ := hs.finished
    obtain ⟨j, hj, -⟩ := ht g.jobId ⟨e, published_append .. ▸ List.mem_append_left _ he, hfin⟩
    have ho : (d.run (front ++ rest)).op? (.finish now) =
        some ⟨now, .announce g.jobId g.artifacts⟩ := by
      simp only [op?, finding?, hw, Option.bind_some, hf]
      rfl
    refine ⟨⟨g.jobId, now, .artifactReady g.artifacts⟩, ?_, rfl⟩
    rw [published_append, ← run_append, published_of_announce ho (Option.isSome_of_mem hj)]
    exact List.mem_append_right _ (List.mem_singleton_self _)
  next => exact hacc

/-- One act: the handler goes on, and is told what the act says. -/
theorem Attended.act (h : d.Attended as w) (hb : (d.run as).registry.bus.WellFormed)
    (ht : d.Truthful as) (a : Act) : ∃ w', d.Attended (as ++ [a]) w' := by
  cases a with
  | take => exact h.take
  | look files => exact ⟨_, h.look hb ht files⟩
  | finish now => exact ⟨_, h.finish hb ht now⟩
  | attach =>
    have hw : ((d.run as).act .attach).handling = some w := by
      simp only [Depot.act, h.handling, Option.some_or]
    exact ⟨w, h.goesOn hb (by simp) hw rfl rfl (h.accounted.append _)⟩
  | operate | ask | tell =>
    exact ⟨w, h.goesOn hb (by simp) h.handling rfl rfl (h.accounted.append _)⟩

/-! ## From the moment the handler is set up -/

theorem exists_act_of_mem_published {e : Event} (he : e ∈ d.published id as) :
    ∃ before a after, as = before ++ a :: after ∧ e ∈ (d.run before).published id [a] := by
  induction as generalizing d with
  | nil => cases he
  | cons a as ih =>
    rw [← List.singleton_append, published_append] at he
    rcases List.mem_append.mp he with he | he
    · exact ⟨[], a, as, rfl, he⟩
    · obtain ⟨before, a', after, rfl, hm⟩ := ih he
      exact ⟨a :: before, a', after, rfl, hm⟩

theorem recorded_of_artifactReady {e : Event} {artifacts : List Artifact}
    (he : e ∈ d.published id as) (hp : e.payload = .artifactReady artifacts) :
    ∃ k, (d.run as).registry.get? id = some k ∧ (k.metadata.get? Metadata.artifactsKey).isSome := by
  obtain ⟨before, a, after, rfl, hm⟩ := exists_act_of_mem_published he
  obtain ⟨now, ho, hs⟩ := op?_of_artifactReady hm hp
  obtain ⟨k, hk, hm⟩ := listed_of_announce ho hs [] (List.not_mem_nil)
  obtain ⟨l, hl, hkey⟩ := Registry.isSome_metadata_runAll hk (Option.isSome_of_mem hm)
    (((d.run before).act a).history after)
  rw [run_append, run, List.foldl_cons, ← run, registry_run]
  exact ⟨l, hl, hkey⟩

variable {c : JobsConfig} {r₀ : Registry}

theorem truthful_run (h : Registry.new c = some r₀) (past as : List Act) :
    ((start r₀).run past).Truthful as := by
  rintro id ⟨e, he, hf⟩
  have hall : e ∈ (start r₀).published id (past ++ as) :=
    published_append .. ▸ List.mem_append_right _ he
  rw [← run_append, registry_start_run]
  exact Registry.ended_of_finished h (isDirect_history _ _) hall hf

theorem nodup_finishedIds (h : Registry.new c = some r₀) (past as : List Act) :
    (finishedIds (((start r₀).run past).said as)).Nodup := by
  refine List.nodup_iff_count_le_one.mpr fun id => ?_
  have hall : ((start r₀).published id (past ++ as)).countP Event.isFinished ≤ 1 :=
    Registry.countP_isFinished_le h (isDirect_history _ _) id
  rw [published_append, List.countP_append] at hall
  rw [count_finishedIds]
  exact Nat.le_trans (Nat.le_add_left ..) hall

theorem attended_attach (hb : d.registry.bus.WellFormed) (hn : d.handling = none) :
    (d.act .attach).Attended [] ⟨d.registry.bus.nextId, .idle, []⟩ where
  handling := by
    change d.handling.or _ = _
    rw [hn]
    rfl
  queue := by
    refine ⟨[], ?_, rfl⟩
    change (d.act .attach).registry.bus.receiver? _ = _
    rw [registry_act, op?, hn]
    exact hb.receiver?_subscribeAll
  accounted := ⟨by simp [Phase.finding?], List.forall_mem_nil _⟩

theorem attended_run (h : Registry.new c = some r₀) (past after : List Act)
    (hn : ((start r₀).run past).handling = none) :
    ∃ w, ((start r₀).run (past ++ [.attach])).Attended after w := by
  have hb (as : List Act) : ((start r₀).run as).registry.bus.WellFormed := by
    rw [registry_start_run]
    exact Registry.wellFormed_bus h _
  -- By the last act: it meets a handler for which all that was said before is accounted for.
  induction after using List.reverseRecOn with
  | nil =>
    rw [run_append]
    exact ⟨_, attended_attach (hb past) hn⟩
  | append_singleton as a ih =>
    obtain ⟨w, hw⟩ := ih
    refine hw.act ?_ (truthful_run h _ _) a
    rw [← run_append]
    exact hb _

theorem finishedIds_of_announcing {now : Timestamp} {g : Option Finding}
    (ho : d.op? a = announcing now g) : finishedIds (d.said [a]) = [] := by
  rw [said_singleton, ho]
  cases g with
  | none => rfl
  | some f =>
    simp only [announcing, Option.map_some, Option.toList_some, Registry.busHistory,
      Registry.busActs, Registry.ifKnown]
    split <;> rfl

/-- Whenever the completion handler is idle and has nothing in its queue, it has resolved the jobs
that were said to be finished since it was set up, each once and in that order. It has searched each
of them after that was said, and what it has found is announced and recorded. What it causes itself
is never the end of a job. -/
theorem each_completion_once (h : Registry.new c = some r₀) (past after : List Act)
    (hn : ((start r₀).run past).handling = none) :
    let d := (start r₀).run (past ++ [.attach])
    ∃ w, (d.run after).handling = some w ∧
      (w.phase = .idle → (d.run after).registry.bus.queueOf w.subscription = [] →
        w.resolved.map Finding.jobId = finishedIds (d.said after) ∧
          (w.resolved.map Finding.jobId).Nodup) ∧
      (∀ f ∈ w.resolved, ∃ front rest, after = front ++ rest ∧ d.Search front rest f ∧
        (f.artifacts ≠ [] →
          (∃ e ∈ (d.run front).published f.jobId rest, e.payload = .artifactReady f.artifacts) ∧
          ∃ k, (d.run after).registry.get? f.jobId = some k ∧
            (k.metadata.get? Metadata.artifactsKey).isSome)) ∧
      ∀ files now, ∀ a ∈ [.take, .look files, .finish now],
        finishedIds ((d.run after).said [a]) = [] := by
  intro d
  obtain ⟨w, hw⟩ := attended_run h past after hn
  refine ⟨w, hw.handling, fun hp hq => ?_, fun f hf => ?_, fun files now => ?_⟩
  · have hids := hw.resolved_eq hp hq
    exact ⟨hids, hids ▸ nodup_finishedIds h ..⟩
  · obtain ⟨front, rest, rfl, hs, ha⟩ := hw.accounted.resolved f hf
    refine ⟨front, rest, rfl, hs, fun hne => ?_⟩
    obtain ⟨e, he, hp⟩ := ha hne
    rw [run_append d front]
    exact ⟨⟨e, he, hp⟩, recorded_of_artifactReady he hp⟩
  · have htake : finishedIds ((d.run after).said [.take]) = [] := by
      rw [said_take hw.handling]
      rfl
    have hfinish : finishedIds ((d.run after).said [.finish now]) = [] :=
      finishedIds_of_announcing rfl
    exact List.forall_mem_cons.mpr
      ⟨htake, List.forall_mem_cons.mpr ⟨rfl, List.forall_mem_singleton.mpr hfinish⟩⟩

/-- A job that finishes while another one is searched is resolved after it, and the announcement of
the first is passed over. -/
theorem each_completion_once_of_busy_handler :
    let a (o : Operation) : Act := .operate ⟨default, o⟩
    let fails (id : String) : List Act :=
      [a (.step id (.launch (.error "not found"))), a (.step id .report), a (.step id .fail)]
    let output := Dict.empty.insert Metadata.outputPathKey (.text "out.csv")
    let options : JobOptions := { JobOptions.none with metadata := output }
    let files : FileSystem := ⟨[(["out.csv"], .file [120])], []⟩
    let after : List Act :=
      [a (.submit ["true"] options "j"), a (.submit ["true"] .none "k")] ++ fails "j" ++
        List.replicate 5 .take ++ [.look files] ++ fails "k" ++ [.finish default] ++
        List.replicate 3 .take ++ [.look files, .take]
    ∃ r₀, Registry.new ⟨4, 0, 8, "/", "", ""⟩ = some r₀ ∧ ((start r₀).run []).handling = none ∧
      let d := (start r₀).run [.attach]
      ∃ w, (d.run after).handling = some w ∧ w.phase = .idle ∧
        finishedIds (d.said after) = ["j", "k"] ∧ w.resolved.map Finding.jobId = ["j", "k"] ∧
        ∃ k, (d.run after).registry.get? "j" = some k ∧
          (k.metadata.get? Metadata.artifactsKey).isSome := by
  intro a fails output options files after
  obtain ⟨r₀, h⟩ : ∃ r₀, Registry.new ⟨4, 0, 8, "/", "", ""⟩ = some r₀ := ⟨_, rfl⟩
  obtain ⟨w, hw, hidle, hresolved, -⟩ := each_completion_once h [] after rfl
  have hstate : (((start r₀).run [.attach]).run after).handling.all (fun w => w.phase = .idle &&
      ((((start r₀).run [.attach]).run after).registry.bus.queueOf w.subscription).isEmpty &&
      w.resolved.map (fun f => (f.jobId, f.artifacts.length)) = [("j", 1), ("k", 0)]) = true := by
    cases h
    decide +kernel
  have hsaid : finishedIds (((start r₀).run [.attach]).said after) = ["j", "k"] := by
    cases h
    decide +kernel
  have hw' : (((start r₀).run [.attach]).run after).handling = some w := hw
  simp only [hw', Option.all_some, Bool.and_eq_true, decide_eq_true_eq] at hstate
  obtain ⟨⟨hp, hq⟩, hlengths⟩ := hstate
  obtain ⟨hids, -⟩ := hidle hp (List.isEmpty_iff.mp hq)
  have hj : ∃ f ∈ w.resolved, (f.jobId, f.artifacts.length) = ("j", 1) :=
    List.mem_map.mp (hlengths ▸ List.mem_cons_self)
  obtain ⟨f, hf, he⟩ := hj
  obtain ⟨hid, hlength⟩ := Prod.mk.inj he
  obtain ⟨front, rest, -, -, hrecorded⟩ := hresolved f hf
  obtain ⟨-, k, hk, hm⟩ := hrecorded (List.ne_nil_of_length_eq_add_one hlength)
  exact ⟨r₀, h, rfl, w, hw, hp, hsaid, hids.trans hsaid, k, hid ▸ hk, hm⟩

end Depot

end JobConsole
