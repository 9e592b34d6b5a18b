import JobConsole.Http.Server
import JobConsole.Proofs.Live.Hub
import JobConsole.Proofs.Registry.Ids

/-! # Histories of a console

What can happen to a console: it is asked something, its tasks and the holders of subscriptions do
something to its registry, its completion handler works, and the world around it moves on. Whatever
happens, its registry is one that a run of operations comes to, and new ids are only those that come
with the requests.
-/

namespace JobConsole

/-- An operation that a request asks for by itself. -/
def Operation.isServed : Operation → Bool
  | .change .. | .announce .. | .step .. | .use .. => false
  | _ => true

namespace Registry

variable {r r' r'' : Registry} {ids : List String} {now : Timestamp}

theorem leads_resolveArtifacts {fs : FileSystem} {id : String} {announced : Bool}
    {found : List Artifact} (h : r.resolveArtifacts fs id announced now = .ok (found, r')) :
    Leads ids r r' := by
  unfold resolveArtifacts at h
  split at h
  · cases h
  next found' _ =>
    split at h
    · split at h
      · cases h
      next r₁ ha =>
        obtain ⟨rfl, rfl⟩ := Prod.mk.inj (Except.ok.inj h)
        exact leads_of_apply now (.announce id found') rfl (by rw [apply, ha]; rfl)
    · obtain ⟨rfl, rfl⟩ := Prod.mk.inj (Except.ok.inj h)
      exact .refl ids r

/-- What requests do to a registry: they ask for operations, resolve artifacts, and discard the
handles that they have got. -/
inductive Serves (ids : List String) (r : Registry) : Registry → Prop where
  | refl : Serves ids r r
  | apply {r' : Registry} {o : Operation} (h : Serves ids r r') (now : Timestamp)
      (ho : o.isServed = true) (hf : ∀ id, o.fresh = some id → id ∈ ids) :
      Serves ids r (r'.apply now o)
  | resolve {r' r'' : Registry} {fs : FileSystem} {id : String} {announced : Bool} {now : Timestamp}
      {found : List Artifact} (h : Serves ids r r')
      (hr : r'.resolveArtifacts fs id announced now = .ok (found, r'')) : Serves ids r r''
  | discard {r' : Registry} {s : Nat} (h : Serves ids r r') (hs : r.bus.receiver? s = none) :
      Serves ids r { r' with bus := r'.bus.use s .discard }

theorem Serves.of_apply (h : Serves ids r r') (now : Timestamp) (o : Operation)
    (ho : o.isServed = true) (hf : o.fresh = none) (ha : r'.apply now o = r'') : Serves ids r r'' :=
  ha ▸ h.apply now ho fun id hid => by simp [hf] at hid

theorem Serves.leads (h : Serves ids r r') : Leads ids r r' := by
  induction h with
  | refl => exact .refl ids r
  | @apply r' o _ now _ hf ih =>
    refine ih.trans ((leads_apply r' now o).mono fun id hid => ?_)
    exact hf id (Option.mem_toList.mp hid)
  | resolve _ hr ih => exact ih.trans (leads_resolveArtifacts hr)
  | @discard r' s _ _ ih => exact ih.trans (leads_of_apply default (.use s .discard) rfl rfl)

end Registry

namespace CompletionHandler

variable {h : CompletionHandler} {r r' : Registry} {fs : FileSystem} {now : Timestamp}
  {ids : List String}

theorem leads_handle (fs : FileSystem) (now : Timestamp) (r : Registry) (e : Event) :
    Registry.Leads ids r (handle fs now r e) := by
  unfold handle
  split
  · split
    next hr => exact Registry.leads_resolveArtifacts hr
    next => exact .refl ids r
  · exact .refl ids r

theorem leads_step (hs : h.step r fs now = some r') : Registry.Leads ids r r' := by
  unfold step at hs
  split at hs
  next e b hb =>
    obtain rfl := Option.some.inj hs
    have hr : Registry.Leads ids r { r with bus := b } :=
      Registry.leads_of_apply now (.use h.subscription .receive) rfl
        (by rw [Registry.apply, Bus.use, hb])
    exact hr.trans (leads_handle fs now _ e)
  · cases hs

theorem leads_steps (h : CompletionHandler) (fs : FileSystem) (now : Timestamp) (r : Registry)
    (n : Nat) : Registry.Leads ids r (h.steps fs now r n) := by
  induction n generalizing r with
  | zero => exact .refl ids r
  | succ n ih =>
    rw [steps]
    split
    next hs => exact (leads_step hs).trans (ih _)
    next => exact .refl ids r

end CompletionHandler

namespace Live.Channel

variable {ch : Channel} {r r' : Registry} {ids : List String} {keepAlive now : Nat}

/-- A channel in shape and in use, whose handle nobody had before. -/
structure Opened (ch : Channel) (r r' : Registry) : Prop where
  shape : ch.Shape
  holds : ch.Holds r'.bus
  fresh : ∀ s, ch.subscription = some s → r.bus.receiver? s = none

theorem opened_openJob {id : String} (hb : r.bus.WellFormed)
    (ho : openJob r id keepAlive now = .ok (ch, r')) :
    Registry.Serves ids r r' ∧ ch.Opened r r' := by
  cases hj : r.get? id with
  | none =>
    obtain ⟨rfl, rfl⟩ := Prod.mk.inj (Except.ok.inj ((openJob_unknown hj).symm.trans ho))
    exact ⟨.refl, .missing, nofun, nofun⟩
  | some j =>
    obtain ⟨s, t, b, hs, rfl, rfl⟩ := openJob_known hj ho
    refine ⟨?_, .opened, fun s' hs' => ?_, fun s' hs' => ?_⟩
    · exact Registry.Serves.refl.of_apply default (.subscribe id) rfl rfl
        (by rw [Registry.apply, Registry.subscribe, hs]; rfl)
    · obtain rfl := Option.some.inj hs'
      exact ⟨_, hb.receiver?_subscribe hs, rfl⟩
    · obtain rfl := Option.some.inj hs'
      exact (Bus.eq_of_subscribe hs).1 ▸ hb.receiver?_nextId

theorem opened_openAll (hb : r.bus.WellFormed) (ho : openAll r keepAlive now = .ok (ch, r')) :
    Registry.Serves ids r r' ∧ ch.Opened r r' := by
  unfold openAll at ho
  split at ho
  · cases ho
  next t ht =>
    obtain ⟨rfl, rfl⟩ := Prod.mk.inj (Except.ok.inj ho)
    refine ⟨Registry.Serves.refl.of_apply default .subscribeAll rfl rfl rfl, .live (.inr rfl),
      fun s hs => ?_, fun s hs => ?_⟩
    · obtain rfl := Option.some.inj hs
      exact ⟨_, hb.receiver?_subscribeAll, rfl⟩
    · obtain rfl := Option.some.inj hs
      exact hb.receiver?_nextId

end Live.Channel

theorem Console.opened_openChannel {ids : List String} (c : Console)
    {id : Option String} {ch : Live.Channel} {c' : Console} (hb : c.registry.bus.WellFormed)
    (ho : c.openChannel id = .ok (ch, c')) :
    Registry.Serves ids c.registry c'.registry ∧ ch.Opened c.registry c'.registry := by
  cases id with
  | some id =>
    simp only [Console.openChannel] at ho
    split at ho
    · cases ho
    next ch' r hr =>
      obtain ⟨rfl, rfl⟩ := Prod.mk.inj (Except.ok.inj ho)
      exact Live.Channel.opened_openJob hb hr
  | none =>
    simp only [Console.openChannel] at ho
    split at ho
    · cases ho
    next ch' r hr =>
      obtain ⟨rfl, rfl⟩ := Prod.mk.inj (Except.ok.inj ho)
      exact Live.Channel.opened_openAll hb hr

namespace Http

def Response.channel? (p : Response) : Option Live.Channel :=
  match p.content with
  | .stream ch => some ch
  | _ => none

namespace Api

/-- An answer that leaves the console with what requests make of its registry, and with the channel
in use that it carries, if any. -/
structure Regular (a : Arrival) (c : Console) (x : Answer) : Prop where
  serves : Registry.Serves [a.jobId] c.registry x.2.registry
  opened : ∀ ch, x.1.channel? = some ch → ch.Opened c.registry x.2.registry

variable {a : Arrival} {c c' : Console} {x : Answer} {p : Response} {r : Request}

theorem regular_of_serves (c' : Console) (h : Registry.Serves [a.jobId] c.registry c'.registry)
    (hp : p.channel? = none) : Regular a c (p, c') :=
  ⟨h, fun ch hc => by simp [hp] at hc⟩

theorem regular_refuse (c' : Console) (h : Registry.Serves [a.jobId] c.registry c'.registry)
    (e : Error) : Regular a c (refuse c' e) :=
  regular_of_serves c' h rfl

theorem regular_withBody {α : Type} {reader : Json.Reader α} {k : α → Answer}
    (hk : ∀ s, Regular a c (k s)) : Regular a c (withBody c reader r k) := by
  unfold withBody
  split
  · exact hk _
  · exact regular_of_serves c .refl rfl

theorem regular_submit (c' : Console) (h : Registry.Serves [a.jobId] c.registry c'.registry)
    (command : List String) (options : JobOptions) : Regular a c (submit c' a command options) := by
  have hs := h.apply (o := .submit command options a.jobId) a.now rfl
    fun id hid => by simpa [Operation.fresh] using hid.symm
  unfold submit
  split
  next e he => exact regular_refuse c' h e
  next j r hr =>
    rw [Registry.apply, hr] at hs
    exact regular_of_serves { c' with registry := r } hs rfl

theorem regular_submitRefinery (r : Refinery.Request) : Regular a c (submitRefinery c a r) := by
  have h : Registry.Serves [a.jobId] c.registry c.registry := .refl
  unfold submitRefinery
  split
  next fs e _ => exact regular_refuse { c with files := fs } h e
  next fs p _ => exact regular_submit { c with files := fs } h p.command p.options

theorem regular_mergeMetadata (id : String) (m : MergeRequest) :
    Regular a c (mergeMetadata c a id m) := by
  unfold mergeMetadata
  split
  · exact regular_refuse c .refl _
  next j r hr =>
    have hs : Registry.Serves [a.jobId] c.registry r :=
      Registry.Serves.refl.of_apply a.now (.merge id m.metadata) rfl rfl
        (by rw [Registry.apply, hr]; rfl)
    split
    · split
      next e _ => exact regular_refuse { c with registry := r } hs e
      next found r' hr' => exact regular_of_serves { c with registry := r' } (hs.resolve hr') rfl
    · exact regular_of_serves { c with registry := r } hs rfl

theorem regular_publishStage (id : String) (s : StageRequest) :
    Regular a c (publishStage c a id s) := by
  simp only [publishStage]
  split
  · exact regular_refuse c .refl _
  · split
    · exact regular_refuse c .refl _
    next r hr =>
      have hs : Registry.Serves [a.jobId] c.registry r :=
        Registry.Serves.refl.of_apply a.now (.stage id (Text.trim s.stage) s.detail) rfl rfl
          (by rw [Registry.apply, hr]; rfl)
      exact regular_of_serves { c with registry := r } hs rfl

theorem regular_listArtifacts (id : String) : Regular a c (listArtifacts c a id) := by
  unfold listArtifacts
  split
  · exact regular_refuse c .refl _
  next found r hr =>
    exact regular_of_serves { c with registry := r } (Registry.Serves.refl.resolve hr) rfl

theorem regular_download (id artifactId : String) : Regular a c (download c id artifactId) := by
  unfold download
  split
  · exact regular_refuse c .refl _
  · split
    · exact regular_of_serves c .refl rfl
    · refine regular_of_serves c .refl ?_
      unfold fileResponse
      split <;> rfl

/-! ## Channels -/

theorem regular_openStream (hb : c.registry.bus.WellFormed) (id : Option String) :
    Regular a c (openStream c id) := by
  unfold openStream
  split
  next ch c' ho =>
    obtain ⟨hs, hopened⟩ := c.opened_openChannel hb ho
    exact ⟨hs, fun _ hc => Option.some.inj hc ▸ hopened⟩
  · exact regular_refuse c .refl _
  · exact regular_of_serves c .refl rfl

theorem Regular.withoutContent (h : Regular a c x) : Regular a c (withoutContent x) := by
  obtain ⟨⟨status, headers, content⟩, c'⟩ := x
  cases content with
  | stream ch =>
    obtain ⟨hshape, hholds, hfresh⟩ := h.opened ch rfl
    have hclose := Live.Channel.close_eq hshape hholds
    have hs : Registry.Serves [a.jobId] c.registry (c'.closeChannel ch).2.registry := by
      simp only [Console.closeChannel, Console.setBus, hclose, Live.Channel.leaving]
      cases hsub : ch.subscription with
      | none => exact h.serves
      | some s => exact h.serves.discard (hfresh s hsub)
    exact regular_of_serves (c'.closeChannel ch).2 hs rfl
  | _ => exact regular_of_serves c' h.serves rfl

/-! ## Answers -/

theorem regular_handle (hb : c.registry.bus.WellFormed) (r : Request) (t : Route) :
    Regular a c (handle c a r t) := by
  have unchanged {p : Response} (hp : p.channel? = none) : Regular a c (p, c) :=
    regular_of_serves c .refl hp
  cases t with
  | health => exact unchanged rfl
  | jobs =>
    rw [handle]
    split
    · exact regular_withBody fun s => regular_submit c .refl s.command s.options
    · exact unchanged rfl
  | importing | refining | contract =>
    exact regular_withBody fun s => regular_submitRefinery _
  | events => exact regular_openStream hb none
  | job id =>
    rw [handle, getJob]
    split
    · exact regular_refuse c .refl _
    · exact unchanged rfl
  | metadata id => exact regular_withBody fun m => regular_mergeMetadata id m
  | stage id => exact regular_withBody fun s => regular_publishStage id s
  | stream id => exact regular_openStream hb (some id)
  | artifacts id => exact regular_listArtifacts id
  | artifact id artifactId => exact regular_download id artifactId

theorem serves_route (hb : c.registry.bus.WellFormed) (a : Arrival) (r : Request) :
    Registry.Serves [a.jobId] c.registry (route c a r).2.registry := by
  unfold route
  split
  · exact .refl
  · split
    · split
      · exact .refl
      next t _ =>
        have h := regular_handle (a := a) hb r t
        by_cases hm : r.method = .head
        · simp only [if_pos hm]
          exact h.withoutContent.serves
        · simp only [if_neg hm]
          exact h.serves
    · exact .refl

end Api

/-- Whatever is asked, and whatever is answered. -/
theorem Server.serves_respond {c : Console} (hb : c.registry.bus.WellFormed) (a : Arrival)
    (r : Request) : Registry.Serves [a.jobId] c.registry (respond c a r).2.registry := by
  have hroute := Api.serves_route hb a r
  unfold respond
  generalize Api.route c a r = answer at hroute ⊢
  split
  · exact .refl
  · exact hroute

end Http

/-! ## Runs of a console -/

namespace Console

inductive Act where
  | request (a : Http.Arrival) (r : Http.Request)
  /-- A step of a task, a use of a subscription, or what else the registry is asked for directly. -/
  | operate (o : Timed)
  | settle (h : CompletionHandler) (now : Timestamp)
  /-- The files change, time goes by, and the server begins to shut down. -/
  | drift (files : FileSystem) (shutdown : Bool) (clock : Nat)

namespace Act

def fresh : Act → List String
  | request a _ => [a.jobId]
  | operate o => o.op.fresh.toList
  | _ => []

end Act

def act (c : Console) : Act → Console
  | .request a r => (Http.Server.respond c a r).2
  | .operate o => { c with registry := c.registry.apply o.now o.op }
  | .settle h now => c.settle h now
  | .drift files shutdown clock => { c with files := files, shutdown := shutdown, clock := clock }

def run (c : Console) (as : List Act) : Console := as.foldl act c

variable {c : Console} {as as' : List Act} {ids : List String}

theorem run_append (c : Console) (as as' : List Act) : c.run (as ++ as') = (c.run as).run as' :=
  List.foldl_append ..

theorem leads_act (hb : c.registry.bus.WellFormed) (x : Act) :
    Registry.Leads x.fresh c.registry (c.act x).registry := by
  cases x with
  | request a r => exact (Http.Server.serves_respond hb a r).leads
  | operate o => exact Registry.leads_apply c.registry o.now o.op
  | settle h now => exact CompletionHandler.leads_steps ..
  | drift files shutdown clock => exact .refl ..

theorem leads_run (hb : c.registry.bus.WellFormed) (hf : ∀ x ∈ as, x.fresh ⊆ ids) :
    Registry.Leads ids c.registry (c.run as).registry := by
  induction as generalizing c with
  | nil => exact .refl ..
  | cons x as ih =>
    obtain ⟨hx, has⟩ := List.forall_mem_cons.mp hf
    have hl := (leads_act hb x).mono hx
    exact hl.trans (ih (hl.wellFormed hb) has)

end Console

end JobConsole
