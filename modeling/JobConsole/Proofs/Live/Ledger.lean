import JobConsole.Proofs.Bus.Accounting
import JobConsole.Proofs.Live.Hub

/-! # Subscribers of a hub

Clients of the registry, channels and whoever publishes share one bus. Besides the hub a ledger notes
whose holders are half-way out: clients take the two steps of unsubscribing one after the other, and so
does a channel that is closed or dropped. Whatever comes in between, the table of the bus keeps its
order, and it is exact whenever nobody is half-way out.
-/

namespace JobConsole.Live

/-! ## Acts of the hub -/

namespace Hub

def IsOn (h : Hub) (k : Nat) (id : String) : Prop :=
  ∃ c, h.channels[k]? = some c ∧ c.target = some id

/-- The act is about the job: it publishes or subscribes there, or uses a handle on it. -/
def Concerns (h : Hub) (id : String) : Act → Prop
  | .operate now o => ∃ x ∈ h.registry.busActs now o, x.Concerns h.bus id
  | .openJob job _ _ => job = id
  | .openAll _ _ => False
  | .poll k _ _ | .close k => h.IsOn k id
  | .shutDown => True

variable {h h' : Hub} {a : Act} {as : List Bus.Act} {k s : Nat} {c : Channel} {id : String}

theorem Sound.setShut (hs : h.Sound) (k : Nat) (c : Channel) : (h.setChannel k c.shut).Sound := by
  have hold {i s : Nat} {c' : Channel} (hi : (h.setChannel k c.shut).channels[i]? = some c')
      (hc : c'.subscription = some s) : h.channels[i]? = some c' := by
    rcases channel_setChannel hi with ⟨-, rfl⟩ | ⟨-, hi⟩
    · cases hc
    · exact hi
  constructor
  · exact hs.bus
  · intro i c' hi
    rcases channel_setChannel hi with ⟨-, rfl⟩ | ⟨-, hi⟩
    · exact .closed
    · exact hs.shape hi
  · intro i s c' hi hc
    exact hs.served (hold hi hc) hc
  · intro i i' s c₁ c₂ hi hi' hc hc'
    exact hs.distinct (hold hi hc) (hold hi' hc') hc hc'

/-- Whoever leaves the handles of channels alone keeps a hub in order. -/
theorem Sound.withBus {x : Bus.Act} (hs : h.Sound) (hx : x.isShutDown = false)
    (hf : ∀ {k s : Nat} {c : Channel}, h.channels[k]? = some c → c.subscription = some s →
      x.Foreign s) : (h.withBus (h.bus.act x)).Sound := by
  constructor
  · exact hs.bus.act x
  · exact hs.shape
  · intro k s c hk hc
    obtain ⟨r, hr, hserved⟩ := hs.served hk hc
    have hx' : ∀ y ∈ [x], y.Foreign s ∧ y.isShutDown = false :=
      List.forall_mem_singleton.mpr ⟨hf hk hc, hx⟩
    exact ⟨_, hs.bus.receiver?_acts hr hx', hserved⟩
  · exact hs.distinct

/-- Channels take both steps of leaving at once, and so none of their acts is a first step. -/
theorem Happens.not_close (hh : Happens h a h' as) (ha : a.isShutDown = false)
    (hu : ∀ now s u, a ≠ .operate now (.use s u)) :
    ∀ x ∈ as, x.isShutDown = false ∧ ∀ s, x ≠ .use s .close := by
  intro x hx
  refine ⟨hh.not_isShutDown ha x hx, ?_⟩
  rintro s rfl
  cases hh with
  | @operated now o _ _ =>
    obtain rfl := ((Registry.effect ..).of_mem hx).2 s .close rfl
    exact hu now s .close rfl
  | @closed k c _ =>
    unfold Channel.leaving at hx
    split at hx <;> simp at hx
  | polled _ hp _ => cases hp <;> simp at hx
  | opened _ _ _ | openedAll _ | shutDown => simp at hx
  | refused _ _ _ | missed _ _ => cases hx

theorem Happens.length_le (hh : Happens h a h' as) : as.length ≤ 1 := by
  cases hh with
  | operated _ _ => exact (Registry.effect ..).length_le
  | @closed k c _ =>
    unfold Channel.leaving
    split <;> simp
  | polled _ hp _ => cases hp <;> simp
  | _ => simp

theorem Sound.not_concerns (hs : h.Sound) (hk : h.channels[k]? = some c)
    (hc : c.subscription = some s) (hn : ¬h.IsOn k id) (x : Bus.Use) :
    ¬(Bus.Act.use s x).Concerns h.bus id := by
  rintro ⟨r, hr, hid⟩
  obtain ⟨r', hr', htopic, -⟩ := hs.served hk hc
  obtain rfl := Option.some.inj (hr.symm.trans hr')
  refine hn ⟨c, hk, ?_⟩
  rw [htopic, Channel.topic] at hid
  split at hid
  next job hj => exact hj.trans (congrArg some (Topic.job.inj hid))
  next => cases hid

theorem Happens.not_concerns (hh : Happens h a h' as) (hs : h.Sound) (ha : ¬h.Concerns id a) :
    ∀ x ∈ as, ¬x.Concerns h.bus id := by
  cases hh with
  | operated _ _ => exact fun x hx hc => ha ⟨x, hx, hc⟩
  | opened _ _ _ => exact List.forall_mem_singleton.mpr ha
  | openedAll _ => exact List.forall_mem_singleton.mpr not_false
  | polled hk hp _ =>
    intro x hx
    obtain ⟨s, u, hc, rfl⟩ := hp.uses x hx
    exact hs.not_concerns hk hc ha u
  | closed hk =>
    intro x hx
    obtain ⟨s, u, hc, rfl⟩ := Channel.leaving_uses _ x hx
    exact hs.not_concerns hk hc ha u
  | shutDown => exact absurd trivial ha
  | _ => exact List.forall_mem_nil _

theorem Sound.subscribersOf_act (hs : h.Sound) (ha : ¬h.Concerns id a) :
    (h.act a).bus.subscribersOf id = h.bus.subscribersOf id := by
  obtain ⟨as, hh⟩ := happens hs a
  rw [hh.bus_eq, Bus.subscribersOf_acts hh.length_le (hh.not_concerns hs ha)]

section Refusals

variable {r : Registry} {now : Timestamp} {e : Error}

theorem subscribe_error_iff (r : Registry) (id : String) :
    (∃ e, r.subscribe id = .error e) ↔ ∃ e, r.bus.subscribe id = .error e := by
  unfold Registry.subscribe
  split
  next e he => simp [he]
  next s b hb => simp [hb]

theorem watch_error_iff (r : Registry) (id : String) :
    (∃ e, r.watch id = .error e) ↔ r.get? id = none ∨ ∃ e, r.bus.subscribe id = .error e := by
  unfold Registry.watch
  split
  next hj => simp [hj]
  next j hj =>
    split
    next e he => simp [he]
    next s b hb => simp [hj, hb]

theorem apply_subscribe_of_error (he : r.bus.subscribe id = .error e) :
    r.apply now (.subscribe id) = r := by
  simp only [Registry.apply, Registry.subscribe, he]
  rfl

theorem apply_watch_of_error (he : r.watch id = .error e) : r.apply now (.watch id) = r := by
  rw [Registry.apply, he]
  rfl

theorem registry_openJob_of_error (he : h.registry.watch id = .error e) (keepAlive now : Nat) :
    (h.act (.openJob id keepAlive now)).registry = h.registry := by
  simp only [act, Channel.openJob, he]
  split
  · cases e <;> rfl
  · rfl

end Refusals

end Hub

/-! ## Ledgers -/

/-- A hub, and the handles whose holders are half-way out. -/
structure Ledger where
  hub : Hub
  leaving : List Nat

namespace Ledger

inductive Act where
  | hub (a : Hub.Act)
  /-- Anybody who has the bus publishes an event, about any job. -/
  | publish (e : Event)
  /-- The first step of closing a channel or dropping it. Its handle has still to be discarded. -/
  | leave (k : Nat)

def Act.isShutDown : Act → Bool
  | .hub a => a.isShutDown
  | _ => false

def start (r : Registry) : Ledger := ⟨.start r, []⟩

def bus (l : Ledger) : Bus := l.hub.bus

/-- Whose holders are half-way out after an act of the hub; its channels take both steps at once. -/
def leavingAfter (l : Ledger) : Hub.Act → List Nat
  | .operate _ (.use s u) =>
    if l.hub.running ∧ l.hub.allows (.use s u) then l.bus.departing l.leaving (.use s u) else l.leaving
  | _ => l.leaving

def close (l : Ledger) (s : Nat) : Ledger :=
  ⟨l.hub.withBus (l.bus.act (.use s .close)), l.bus.departing l.leaving (.use s .close)⟩

def setShut (l : Ledger) (k : Nat) (c : Channel) : Ledger :=
  { l with hub := l.hub.setChannel k c.shut }

def act (l : Ledger) : Act → Ledger
  | .hub a => ⟨l.hub.act a, l.leavingAfter a⟩
  | .publish e =>
    if l.hub.running then { l with hub := l.hub.withBus (l.bus.act (.publish e)) } else l
  | .leave k =>
    match l.hub.channels[k]? with
    | none => l
    | some c =>
      match c.subscription with
      | none => l.setShut k c
      | some s => (l.setShut k c).close s

def run (l : Ledger) (as : List Act) : Ledger := as.foldl act l

def Concerns (l : Ledger) (id : String) : Act → Prop
  | .hub a => l.hub.Concerns id a
  | .publish e => e.jobId = id
  | .leave k => l.hub.IsOn k id

def Elsewhere (id : String) : Ledger → List Act → Prop
  | _, [] => True
  | l, a :: as => ¬l.Concerns id a ∧ Elsewhere id (l.act a) as

/-- The hub is in order and runs, and its bus accounts for everybody. -/
structure Balanced (l : Ledger) : Prop where
  sound : l.hub.Sound
  running : l.hub.running = true
  accounted : l.bus.Accounted l.leaving

variable {l : Ledger} {a : Act} {as : List Act} {k s : Nat} {c : Channel} {id : String}

theorem balanced_start {cfg : JobsConfig} {r : Registry} (h : Registry.new cfg = some r) :
    (start r).Balanced := by
  refine ⟨Hub.sound_start h, rfl, ?_⟩
  have hb : (start r).bus = .new cfg.maxSubscribers := Registry.bus_new h
  exact hb ▸ Bus.accounted_new _

/-! ## One act -/

theorem Balanced.act_hub (h : l.Balanced) {a : Hub.Act} (ha : a.isShutDown = false) :
    (l.act (.hub a)).Balanced := by
  obtain ⟨as, hh⟩ := Hub.happens h.sound a
  refine ⟨h.sound.act a, (hh.running_eq ha).trans h.running, ?_⟩
  by_cases hu : ∃ now s u, a = .operate now (.use s u)
  · obtain ⟨now, s, u, rfl⟩ := hu
    simp only [act, bus, leavingAfter, Hub.act]
    split
    next hc => exact h.accounted.act (a := .use s u) rfl
    next hc => exact h.accounted
  · have hleave : l.leavingAfter a = l.leaving := by
      cases a with
      | operate now o =>
        cases o with
        | use s u => exact absurd ⟨now, s, u, rfl⟩ hu
        | _ => rfl
      | _ => rfl
    have hb : (l.act (.hub a)).bus = l.bus.acts as := hh.bus_eq
    rw [hb]
    refine Eq.mpr (congrArg (Bus.Accounted · _) hleave) (h.accounted.acts (hh.not_close ha ?_))
    rintro now s u rfl
    exact hu ⟨now, s, u, rfl⟩

theorem Balanced.publish (h : l.Balanced) (e : Event) : (l.act (.publish e)).Balanced := by
  simp only [act, h.running, ↓reduceIte]
  refine ⟨h.sound.withBus rfl fun _ _ u he => ?_, h.running, h.accounted.publish e⟩
  cases he

theorem Balanced.leave (h : l.Balanced) (k : Nat) : (l.act (.leave k)).Balanced := by
  simp only [act]
  split
  next => exact h
  next c hk =>
    have hshut := h.sound.setShut k c
    split
    next => exact ⟨hshut, h.running, h.accounted⟩
    next s hc =>
      refine ⟨hshut.withBus rfl fun {i s' c'} hi hc' => ?_, h.running, h.accounted.use s .close⟩
      rintro u he
      cases he
      -- the channel that has the handle is shut by now
      rcases Hub.channel_setChannel hi with ⟨-, rfl⟩ | ⟨hne, hi⟩
      · cases hc'
      · exact hne (h.sound.distinct hk hi hc hc')

theorem Balanced.act (h : l.Balanced) (ha : a.isShutDown = false) : (l.act a).Balanced := by
  cases a with
  | hub a => exact h.act_hub ha
  | publish e => exact h.publish e
  | leave k => exact h.leave k

theorem Balanced.run (h : l.Balanced) (ha : ∀ a ∈ as, a.isShutDown = false) :
    (l.run as).Balanced := by
  induction as generalizing l with
  | nil => exact h
  | cons a as ih =>
    obtain ⟨ha, has⟩ := List.forall_mem_cons.mp ha
    exact ih (h.act ha) has

theorem limit_act (h : l.hub.Sound) (a : Act) : (l.act a).bus.limit = l.bus.limit := by
  cases a with
  | hub a =>
    obtain ⟨as, hh⟩ := Hub.happens h a
    have hb : (l.act (.hub a)).bus = l.bus.acts as := hh.bus_eq
    rw [hb, Bus.limit_acts]
  | publish e =>
    simp only [Ledger.act]
    split
    · exact Bus.limit_act l.bus (.publish e)
    · rfl
  | leave k =>
    simp only [Ledger.act]
    split
    · rfl
    · split
      · rfl
      next s _ => exact Bus.limit_act l.bus (.use s .close)

theorem Balanced.limit_run (h : l.Balanced) (ha : ∀ a ∈ as, a.isShutDown = false) :
    (l.run as).bus.limit = l.bus.limit := by
  induction as generalizing l with
  | nil => rfl
  | cons a as ih =>
    obtain ⟨ha, has⟩ := List.forall_mem_cons.mp ha
    exact (ih (h.act ha) has).trans (limit_act h.sound a)

/-! ## Other jobs -/

theorem Balanced.subscribersOf_act (h : l.Balanced) (ha : ¬l.Concerns id a) :
    (l.act a).bus.subscribersOf id = l.bus.subscribersOf id := by
  cases a with
  | hub a => exact h.sound.subscribersOf_act ha
  | publish e =>
    simp only [Ledger.act]
    split
    · exact Bus.subscribersOf_act (a := .publish e) ha
    · rfl
  | leave k =>
    simp only [Ledger.act]
    split
    next => rfl
    next c hk =>
      split
      next => rfl
      next s hc => exact Bus.subscribersOf_act (h.sound.not_concerns hk hc ha .close)

theorem isShutDown_of_not_concerns (ha : ¬l.Concerns id a) : a.isShutDown = false := by
  cases a with
  | hub a =>
    cases a with
    | shutDown => exact absurd trivial ha
    | _ => rfl
  | _ => rfl

theorem Balanced.elsewhere (h : l.Balanced) (ha : l.Elsewhere id as) :
    (l.run as).bus.subscribersOf id = l.bus.subscribersOf id ∧ (l.run as).bus.limit = l.bus.limit ∧
      (l.run as).Balanced := by
  induction as generalizing l with
  | nil => exact ⟨rfl, rfl, h⟩
  | cons a as ih =>
    obtain ⟨ha, has⟩ := ha
    obtain ⟨hs, hl, hb⟩ := ih (h.act (isShutDown_of_not_concerns ha)) has
    exact ⟨hs.trans (h.subscribersOf_act ha), hl.trans (limit_act h.sound a), hb⟩

/-! ## Subscribers -/

theorem Balanced.refused_iff (h : l.Balanced) (id : String) :
    (∃ e, l.hub.registry.subscribe id = .error e) ↔
      0 < l.bus.limit ∧ l.bus.subscriberCount id = l.bus.limit :=
  (Hub.subscribe_error_iff ..).trans (h.accounted.tidy.refused_iff id)

/-- Clients subscribe, watch, publish and leave, and channels are opened, polled, closed and dropped,
with either step of leaving at any moment. The table never holds a handle twice or one that was not
given out, an empty list, or more subscribers of a job than the limit allows. While nobody is half-way
out the counts are those of the handles in use. A subscription is refused just if the job has as many
subscribers as the limit allows, whatever happens elsewhere, and then nothing changes; watching an
unknown job registers nothing. -/
theorem subscribers_accounted {cfg : JobsConfig} {r : Registry} (hnew : Registry.new cfg = some r)
    (as : List Act) (ha : ∀ a ∈ as, a.isShutDown = false) :
    let l := (start r).run as
    let full (id : String) : Prop :=
      0 < cfg.maxSubscribers ∧ l.bus.subscriberCount id = cfg.maxSubscribers
    (l.leaving = [] →
      (∀ id, l.bus.subscriberCount id = l.bus.inUse (.job id)) ∧
        l.bus.wildcardCount = l.bus.inUse .wildcard) ∧
    l.bus.table.Nodup ∧ (∀ s ∈ l.bus.table, s < l.bus.nextId) ∧
    (∀ e ∈ l.bus.byJob, e.2 ≠ []) ∧
    (0 < cfg.maxSubscribers → ∀ id, l.bus.subscriberCount id ≤ cfg.maxSubscribers) ∧
    (∀ id, ((∃ e, l.hub.registry.subscribe id = .error e) ↔ full id) ∧
      ((∃ e, l.hub.registry.watch id = .error e) ↔ l.hub.registry.get? id = none ∨ full id)) ∧
    (∀ id now, full id → l.act (.hub (.operate now (.subscribe id))) = l) ∧
    (∀ id, l.hub.registry.get? id = none ∨ full id →
      (∀ now, l.act (.hub (.operate now (.watch id))) = l) ∧
      ∀ keepAlive now,
        (l.act (.hub (.openJob id keepAlive now))).hub.registry = l.hub.registry) ∧
    ∀ id as', l.Elsewhere id as' →
      ((∃ e, (l.run as').hub.registry.subscribe id = .error e) ↔
        ∃ e, l.hub.registry.subscribe id = .error e) := by
  intro l full
  have h₀ := balanced_start hnew
  have h : l.Balanced := h₀.run ha
  have hlimit : l.bus.limit = cfg.maxSubscribers := by
    rw [h₀.limit_run ha]
    exact congrArg Bus.limit (Registry.bus_new hnew)
  have hrefused (id : String) : (∃ e, l.hub.registry.subscribe id = .error e) ↔ full id :=
    by rw [h.refused_iff id, hlimit]
  have hwatch (id : String) :
      (∃ e, l.hub.registry.watch id = .error e) ↔ l.hub.registry.get? id = none ∨ full id := by
    rw [Hub.watch_error_iff, ← Hub.subscribe_error_iff, hrefused]
  refine ⟨fun hl => ?_, h.accounted.nodup_table, fun s => h.accounted.lt_of_mem_table,
    h.accounted.tidy.occupied, ?_, fun id => ⟨hrefused id, hwatch id⟩, ?_, ?_, ?_⟩
  · have hcount := (hl ▸ h.accounted : l.bus.Accounted []).length_eq
    exact ⟨fun id => hcount (.job id), hcount .wildcard⟩
  · exact hlimit ▸ h.accounted.tidy.limited
  · intro id now hf
    obtain ⟨e, he⟩ := (Hub.subscribe_error_iff ..).mp ((hrefused id).mpr hf)
    simp only [act, Hub.act, Hub.apply_subscribe_of_error he, ite_self]
    rfl
  · intro id hf
    obtain ⟨e, he⟩ := (hwatch id).mpr hf
    refine ⟨fun now => ?_, Hub.registry_openJob_of_error he⟩
    simp only [act, Hub.act, Hub.apply_watch_of_error he, ite_self]
    rfl
  · intro id as' helse
    obtain ⟨hs, hl, hb⟩ := h.elsewhere helse
    rw [hb.refused_iff, h.refused_iff, hl, Bus.subscriberCount, hs]
    rfl

/-- One handle is pruned between the two steps of its holder, and another leaves with its channel. -/
theorem subscribers_accounted_of_early_leavers :
    let as : List Act :=
      [.hub (.operate default (.submit ["true"] .none "a")),
        .hub (.operate default (.subscribe "a")), .hub (.openJob "a" 25 0),
        .hub (.operate default (.subscribe "a")), .hub (.operate default .subscribeAll),
        .hub (.operate default (.use 0 .close)), .publish ⟨"a", default, .stage "build" none⟩,
        .hub (.operate default (.use 0 .remove)), .leave 0,
        .hub (.operate default (.subscribe "a")), .hub (.operate default (.use 1 .discard))]
    ∃ r, Registry.new ⟨1, 1, 2, "/", "", ""⟩ = some r ∧ (∀ a ∈ as, a.isShutDown = false) ∧
      let l := (start r).run as
      l.leaving = [] ∧ l.bus.inUse (.job "a") = 1 ∧ l.bus.receivers.length = 3 ∧
      l.bus.subscriberCount "a" = l.bus.inUse (.job "a") ∧
      l.bus.wildcardCount = l.bus.inUse .wildcard ∧ l.bus.table.Nodup ∧
      ((∃ e, l.hub.registry.subscribe "a" = .error e) ↔ l.bus.subscriberCount "a" = 2) := by
  intro as
  have ha : ∀ a ∈ as, a.isShutDown = false := by simp [as, Act.isShutDown, Hub.Act.isShutDown]
  obtain ⟨r, hnew⟩ : ∃ r, Registry.new ⟨1, 1, 2, "/", "", ""⟩ = some r := ⟨_, rfl⟩
  obtain ⟨hcount, hnodup, -, -, -, hrefused, -⟩ := subscribers_accounted hnew as ha
  have hleaving : ((start r).run as).leaving = [] := by
    cases hnew
    decide +kernel
  refine ⟨r, hnew, ha, hleaving, ?_, ?_, (hcount hleaving).1 "a", (hcount hleaving).2, hnodup, ?_⟩
  · cases hnew
    decide +kernel
  · cases hnew
    decide +kernel
  · simpa using (hrefused "a").1

end Ledger

end JobConsole.Live
