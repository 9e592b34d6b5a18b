import JobConsole.Proofs.Http.ReadBack
import JobConsole.Proofs.Registry.Completion

/-! # Requests step by step

A console answers a request and lets its completion handler work at one go. Each is a run of a depot
in which nothing comes in between, so what holds of every depot holds of every console.
-/

namespace JobConsole

namespace Depot

variable {d : Depot} {files : FileSystem} {now : Timestamp} {r r' : Registry} {s : Nat}
  {done : List Finding} {ids : List String}

theorem run_resolve {id : String} {announced : Bool} {found : List Artifact}
    (hr : d.registry.resolveArtifacts files id announced now = .ok (found, r')) :
    d.run [.ask id announced files, .tell d.finds.length now] = { d with registry := r' } := by
  unfold Registry.resolveArtifacts at hr
  split at hr
  · cases hr
  next found' hf =>
    split at hr
    next hn =>
      split at hr
      · cases hr
      next r₁ ha =>
        obtain ⟨rfl, rfl⟩ := Prod.mk.inj (Except.ok.inj hr)
        have hsought : d.sought id announced files = [⟨id, found'⟩] := by simp [sought, hf, hn]
        simp [run, act, op?, hsought, announcing, Registry.runAll, Registry.apply, ha,
          Registry.orSelf, List.eraseIdx_append_of_length_le]
    next hn =>
      obtain ⟨rfl, rfl⟩ := Prod.mk.inj (Except.ok.inj hr)
      have hsought : d.sought id announced files = [] := by simp [sought, hf, hn]
      simp [run, act, op?, hsought, announcing, Registry.runAll, List.eraseIdx_of_length_le]

/-- What the handler does about the end of a job is searching and announcing. -/
theorem run_handle {e : Event} (hf : e.isFinished = true)
    (hw : d.handling = some ⟨s, .told e.jobId, done⟩) :
    ∃ done', d.run [.look files, .finish now] =
      ⟨CompletionHandler.handle files now d.registry e, d.finds, some ⟨s, .idle, done'⟩⟩ := by
  rw [CompletionHandler.handle, if_pos hf, Registry.resolveArtifacts]
  cases hr : d.registry.findArtifacts files e.jobId with
  | error err =>
    exact ⟨done, by simp [run, act, op?, finding?, hw, Handling.look, hr, Handling.finish,
      announcing, Phase.finding?, Registry.runAll]⟩
  | ok found =>
    have hlook := Handling.look_told (w := ⟨s, .told e.jobId, done⟩) rfl hr
    by_cases hn : found = []
    · rw [if_pos hn] at hlook
      subst hn
      exact ⟨done ++ [⟨e.jobId, []⟩], by simp [run, act, op?, finding?, hw, hlook, Handling.finish,
        announcing, Phase.finding?, Registry.runAll]⟩
    · rw [if_neg hn] at hlook
      refine ⟨done ++ [⟨e.jobId, found⟩], ?_⟩
      cases ha : d.registry.announce e.jobId found now <;>
        simp [run, act, op?, finding?, hw, hlook, Handling.finish, announcing, Phase.finding?,
          Registry.runAll, Registry.apply, Registry.orSelf, ha, hn]

theorem run_step (hw : d.handling = some ⟨s, .idle, done⟩)
    (hs : CompletionHandler.step ⟨s⟩ d.registry files now = some r') :
    ∃ done', d.run [.take, .look files, .finish now] = ⟨r', d.finds, some ⟨s, .idle, done'⟩⟩ := by
  unfold CompletionHandler.step at hs
  split at hs
  next e b hb =>
    obtain rfl := Option.some.inj hs
    have htake : d.act .take = ⟨{ d.registry with bus := b }, d.finds,
        some ⟨s, if e.isFinished then .told e.jobId else .idle, done⟩⟩ := by
      simp [act, op?, hw, Registry.runAll, Registry.apply, Bus.use, hb, Handling.take]
    rw [run, List.foldl_cons, ← run, htake]
    by_cases hf : e.isFinished = true
    · rw [if_pos hf]
      exact run_handle hf rfl
    · rw [if_neg hf, CompletionHandler.handle, if_neg hf]
      exact ⟨done, rfl⟩
  · cases hs

theorem exists_run_steps (hw : d.handling = some ⟨s, .idle, done⟩) (files : FileSystem)
    (now : Timestamp) (n : Nat) :
    ∃ as done', (∀ a ∈ as, a.isUnsought = false) ∧
      d.run as =
        ⟨CompletionHandler.steps ⟨s⟩ files now d.registry n, d.finds, some ⟨s, .idle, done'⟩⟩ := by
  induction n generalizing d done with
  | zero => exact ⟨[], done, List.forall_mem_nil _, by rw [← hw]; rfl⟩
  | succ n ih =>
    rw [CompletionHandler.steps]
    split
    next r' hs =>
      obtain ⟨done', hrun⟩ := run_step hw hs
      obtain ⟨as, done'', has, hrest⟩ := ih (d := ⟨r', d.finds, some ⟨s, .idle, done'⟩⟩) rfl
      refine ⟨[.take, .look files, .finish now] ++ as, done'', ?_, by rw [run_append, hrun, hrest]⟩
      simpa [Act.isUnsought] using has
    next => exact ⟨[], done, List.forall_mem_nil _, by rw [← hw]; rfl⟩

theorem run_operate {o : Timed} (ha : d.allows o.op = true) :
    d.run [.operate o] = { d with registry := d.registry.apply o.now o.op } := by
  have hop : d.op? (.operate o) = some o := if_pos ha
  simp only [run, List.foldl_cons, List.foldl_nil, act, registryAfter_eq, hop, Option.toList_some,
    Registry.runAll]

theorem allows_of_isServed {o : Operation} (ho : o.isServed = true) (d : Depot) (now : Timestamp) :
    (Act.operate ⟨now, o⟩).isUnsought = false ∧ d.allows o = true := by
  cases o with
  | change | announce | step | use => cases ho
  | _ => exact ⟨rfl, rfl⟩

theorem exists_run_serves (h : Registry.Serves ids d.registry r)
    (hw : ∀ w, d.handling = some w → (d.registry.bus.receiver? w.subscription).isSome) :
    ∃ as, (∀ a ∈ as, a.isUnsought = false) ∧ d.run as = { d with registry := r } := by
  -- The acts so far leave everything but the registry as it was.
  have further {r r' : Registry} (as' : List Act) (has' : ∀ a ∈ as', a.isUnsought = false)
      (hrun' : Depot.run { d with registry := r } as' = { d with registry := r' })
      (h : ∃ as, (∀ a ∈ as, a.isUnsought = false) ∧ d.run as = { d with registry := r }) :
      ∃ as, (∀ a ∈ as, a.isUnsought = false) ∧ d.run as = { d with registry := r' } := by
    obtain ⟨as, has, hrun⟩ := h
    exact ⟨as ++ as', List.forall_mem_append.mpr ⟨has, has'⟩, by rw [run_append, hrun, hrun']⟩
  induction h with
  | refl => exact ⟨[], List.forall_mem_nil _, rfl⟩
  | @apply r' o _ now ho _ ih =>
    obtain ⟨hsought, hallows⟩ := allows_of_isServed ho { d with registry := r' } now
    exact further [.operate ⟨now, o⟩] (List.forall_mem_singleton.mpr hsought)
      (run_operate hallows) ih
  | @resolve r' r'' files id announced now found _ hr ih =>
    refine further [.ask id announced files, .tell d.finds.length now]
      (List.forall_mem_cons.mpr ⟨rfl, List.forall_mem_singleton.mpr rfl⟩) ?_ ih
    exact run_resolve (d := { d with registry := r' }) hr
  | @discard r' s _ hs ih =>
    have hallows : Depot.allows { d with registry := r' } (.use s .discard) = true := by
      refine (Option.all_eq_true ..).mpr fun w hd => decide_eq_true fun he => ?_
      have hheld := hw w hd
      rw [he, hs] at hheld
      cases hheld
    exact further [.operate ⟨default, .use s .discard⟩] (List.forall_mem_singleton.mpr rfl)
      (run_operate hallows) ih

end Depot

namespace Console

variable {d : Depot} {c : Console} {s : Nat} {done : List Finding} {as : List Depot.Act}

/-- Nobody but the completion handler uses its handle, and nobody but the console announces a list
or changes a job. -/
def Act.isUsual (s : Nat) : Act → Bool
  | .operate o =>
    match o.op with
    | .change .. | .announce .. => false
    | .use s' _ => s' ≠ s
    | _ => true
  | .settle h _ => h.subscription = s
  | _ => true

theorem exists_run_act {x : Act} (hd : d.registry = c.registry)
    (hw : d.handling = some ⟨s, .idle, done⟩) (hb : c.registry.bus.WellFormed)
    (hs : (c.registry.bus.receiver? s).isSome) (hx : x.isUsual s = true) :
    ∃ as done', (∀ a ∈ as, a.isUnsought = false) ∧
      d.run as = ⟨(c.act x).registry, d.finds, some ⟨s, .idle, done'⟩⟩ := by
  obtain ⟨registry, finds, handling⟩ := d
  obtain rfl := hd
  obtain rfl := hw
  cases x with
  | request a q =>
    obtain ⟨as, has, hrun⟩ := Depot.exists_run_serves
      (d := ⟨c.registry, finds, some ⟨s, .idle, done⟩⟩)
      (Http.Server.serves_respond hb a q) (fun w hw => Option.some.inj hw ▸ hs)
    exact ⟨as, done, has, hrun⟩
  | operate o =>
    have ho : (Depot.Act.operate o).isUnsought = false ∧
        Depot.allows ⟨c.registry, finds, some ⟨s, .idle, done⟩⟩ o.op = true := by
      obtain ⟨now, op⟩ := o
      cases op with
      | change | announce => cases hx
      | use s' u => exact ⟨rfl, decide_eq_true (Ne.symm (of_decide_eq_true hx))⟩
      | _ => exact ⟨rfl, rfl⟩
    exact ⟨[.operate o], done, List.forall_mem_singleton.mpr ho.1, Depot.run_operate ho.2⟩
  | settle h now =>
    obtain rfl : h.subscription = s := of_decide_eq_true hx
    exact Depot.exists_run_steps (d := ⟨c.registry, finds, some ⟨h.subscription, .idle, done⟩⟩) rfl
      c.files now _
  | drift files shutdown clock => exact ⟨[], done, List.forall_mem_nil _, rfl⟩

/-- Whatever a console with its completion handler comes to, a depot comes to as well. -/
theorem exists_depot_run {cfg : ServerConfig} {fs : FileSystem} {c₀ : Console}
    (h : start cfg fs = .ok c₀) (xs : List Act)
    (hx : ∀ x ∈ xs, x.isUsual (CompletionHandler.attach c₀.registry).1.subscription = true) :
    ∃ as done, (∀ a ∈ as, a.isUnsought = false) ∧
      (((Depot.start c₀.registry).run [.attach]).run as).registry =
        (run { c₀ with registry := (CompletionHandler.attach c₀.registry).2 } xs).registry ∧
      (((Depot.start c₀.registry).run [.attach]).run as).handling =
        some ⟨(CompletionHandler.attach c₀.registry).1.subscription, .idle, done⟩ := by
  have hnew := registry_new_of_start h
  induction xs using List.reverseRecOn with
  | nil => exact ⟨[], [], List.forall_mem_nil _, rfl, rfl⟩
  | append_singleton xs x ih =>
    obtain ⟨hxs, hx⟩ := List.forall_mem_append.mp hx
    obtain ⟨as, done, has, hr, hw⟩ := ih hxs
    obtain ⟨w, hheld⟩ := Depot.attended_run hnew [] as rfl
    obtain ⟨q, hq, -⟩ := hheld.queue
    have hws : w = ⟨_, .idle, done⟩ := Option.some.inj (hheld.handling.symm.trans hw)
    have hb : (((Depot.start c₀.registry).run [.attach]).run as).registry.bus.WellFormed := by
      rw [← Depot.run_append, Depot.registry_start_run]
      exact Registry.wellFormed_bus hnew _
    subst hws
    have hheld' := Option.isSome_of_mem hq
    obtain ⟨as', done', has', hrun⟩ := exists_run_act hr hw (hr ▸ hb) (hr ▸ hheld')
      (hx x (List.mem_singleton_self x))
    refine ⟨as ++ as', done', List.forall_mem_append.mpr ⟨has, has'⟩, ?_, ?_⟩
    · rw [Depot.run_append, hrun, run_append]
      rfl
    · rw [Depot.run_append, hrun]

/-- Whenever nothing waits for the completion handler of a console, the jobs at their end are exactly
those that it has resolved, each once. -/
theorem exists_attended_run {cfg : ServerConfig} {fs : FileSystem} {c₀ : Console}
    (h : start cfg fs = .ok c₀) (xs : List Act)
    (hx : ∀ x ∈ xs, x.isUsual (CompletionHandler.attach c₀.registry).1.subscription = true) :
    let d := (Depot.start c₀.registry).run [.attach]
    let r := (run { c₀ with registry := (CompletionHandler.attach c₀.registry).2 } xs).registry
    ∃ as w, d.Attended as w ∧ (d.run as).registry = r ∧
      (r.bus.queueOf (CompletionHandler.attach c₀.registry).1.subscription = [] →
        (w.resolved.map Finding.jobId).Nodup ∧
          ∀ id, id ∈ w.resolved.map Finding.jobId ↔ r.Ended id) := by
  intro d r
  have hnew := registry_new_of_start h
  obtain ⟨as, done, -, hr, hw⟩ := exists_depot_run h xs hx
  obtain ⟨w, hheld⟩ := Depot.attended_run hnew [] as rfl
  obtain rfl : w = ⟨_, .idle, done⟩ := Option.some.inj (hheld.handling.symm.trans hw)
  have hr : (d.run as).registry = r := hr
  refine ⟨as, _, hheld, hr, fun hq => ?_⟩
  have hids := hheld.resolved_eq rfl (hr ▸ hq)
  refine ⟨hids ▸ Depot.nodup_finishedIds hnew [.attach] as, fun id => ?_⟩
  rw [hids, mem_finishedIds_iff, ← hr]
  constructor
  · exact Depot.truthful_run hnew [.attach] as id
  · rintro ⟨j, hj, ht⟩
    -- setting the handler up says nothing
    have hj : ((Depot.start c₀.registry).run ([.attach] ++ as)).registry.get? id = some j := hj
    exact (Depot.rests_of_ended hnew _ [] hj ht).1

end Console

end JobConsole
