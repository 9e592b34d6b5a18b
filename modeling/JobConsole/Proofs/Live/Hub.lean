import JobConsole.Proofs.Live.Polling
import JobConsole.Proofs.Registry.History

/-! # Channels on one registry

Any number of channels is open on one registry, and opening, polling and closing them comes between
operations of the registry in any order, until the registry goes away. Every channel keeps its shape,
each has a handle of its own, and the receiver of an open channel takes events as long as the registry
is there.
-/

namespace JobConsole.Live

/-- A registry and the channels that have been opened on it, in this order. A channel that has been
dropped stays in its place, closed. -/
structure Hub where
  registry : Registry
  channels : List Channel
  /-- Whether the registry has not gone away. -/
  running : Bool

namespace Hub

inductive Act where
  | operate (now : Timestamp) (o : Operation)
  | openJob (id : String) (keepAlive now : Nat)
  | openAll (keepAlive now : Nat)
  | poll (k : Nat) (timerFirst : Bool) (now : Nat)
  /-- Closes a channel, or drops it. -/
  | close (k : Nat)
  | shutDown

def Act.isShutDown : Act → Bool
  | .shutDown => true
  | _ => false

def Act.On (k : Nat) : Act → Prop
  | .poll k' _ _ => k' = k
  | .close k' => k' = k
  | _ => False

def start (r : Registry) : Hub := ⟨r, [], true⟩

def bus (h : Hub) : Bus := h.registry.bus

def owns (h : Hub) (s : Nat) : Bool := h.channels.any (·.subscription = some s)

/-- The handle of a channel is used by the channel only. -/
def allows (h : Hub) : Operation → Bool
  | .use s _ => !h.owns s
  | _ => true

def withBus (h : Hub) (b : Bus) : Hub := { h with registry := { h.registry with bus := b } }

def enter (h : Hub) (c : Channel) : Hub := { h with channels := h.channels ++ [c] }

def setChannel (h : Hub) (k : Nat) (c : Channel) : Hub := { h with channels := h.channels.set k c }

def accept (h : Hub) : Except OpenError (Channel × Registry) → Hub
  | .ok (c, r) => { h with registry := r }.enter c
  | .error _ => h

def act (h : Hub) : Act → Hub
  | .operate now o =>
    if h.running ∧ h.allows o then { h with registry := h.registry.apply now o } else h
  | .openJob id keepAlive now =>
    if h.running then h.accept (Channel.openJob h.registry id keepAlive now) else h
  | .openAll keepAlive now =>
    if h.running then h.accept (Channel.openAll h.registry keepAlive now) else h
  | .poll k timerFirst now =>
    match h.channels[k]? with
    | none => h
    | some c =>
      let (_, c', b) := c.pollWith timerFirst h.bus now
      (h.withBus b).setChannel k c'
  | .close k =>
    match h.channels[k]? with
    | none => h
    | some c =>
      let (c', b) := c.close h.bus
      (h.withBus b).setChannel k c'
  | .shutDown => { h.withBus h.bus.shutDown with running := false }

def run (h : Hub) (as : List Act) : Hub := as.foldl act h

def yielded (h : Hub) (k : Nat) : Act → List Frame
  | .poll k' timerFirst now =>
    if k' = k then
      match h.channels[k]? with
      | none => []
      | some c => (c.pollWith timerFirst h.bus now).1.frame?.toList
    else []
  | _ => []

def frames (k : Nat) : Hub → List Act → List Frame
  | _, [] => []
  | h, a :: as => h.yielded k a ++ frames k (h.act a) as

def told (h : Hub) (id : String) : Act → List Event
  | .operate now o =>
    if h.running ∧ h.allows o then Registry.eventsOf id (h.registry.busActs now o) else []
  | _ => []

def published (id : String) : Hub → List Act → List Event
  | _, [] => []
  | h, a :: as => h.told id a ++ published id (h.act a) as

/-- Every channel is in shape, and has a receiver of its own. -/
structure Sound (h : Hub) : Prop where
  bus : h.bus.WellFormed
  shape : ∀ {k : Nat} {c : Channel}, h.channels[k]? = some c → c.Shape
  served : ∀ {k s : Nat} {c : Channel}, h.channels[k]? = some c → c.subscription = some s →
    ∃ r, h.bus.receiver? s = some r ∧ r.topic = c.topic ∧ r.active = true ∧
      r.connected = h.running
  distinct : ∀ {k k' s : Nat} {c c' : Channel}, h.channels[k]? = some c →
    h.channels[k']? = some c' → c.subscription = some s → c'.subscription = some s → k = k'

variable {h h' : Hub} {a : Act} {as : List Bus.Act} {k : Nat} {c c' : Channel} {s : Nat}

theorem Sound.holds (hs : h.Sound) (hk : h.channels[k]? = some c) : c.Holds h.bus := by
  intro s hc
  obtain ⟨r, hr, -, ha, -⟩ := hs.served hk hc
  exact ⟨r, hr, ha⟩

/-- What an act can come to, and what it does to the bus. -/
inductive Happens (h : Hub) : Act → Hub → List Bus.Act → Prop where
  | refused {a : Act} (ha : a.isShutDown = false) (hn : ∀ k, a.On k → h.channels[k]? = none)
      (ht : ∀ id, h.told id a = []) : Happens h a h []
  | operated {now : Timestamp} {o : Operation} (hr : h.running = true) (ha : h.allows o = true) :
      Happens h (.operate now o) { h with registry := h.registry.apply now o }
        (h.registry.busActs now o)
  | missed {id : String} {keepAlive now : Nat} (hr : h.running = true)
      (hj : h.registry.get? id = none) :
      Happens h (.openJob id keepAlive now)
        (h.enter ⟨some id, .connecting, some (.notFound id), none, none⟩) []
  | opened {id : String} {keepAlive now s : Nat} {j : Job} {t : Timer} {b : Bus}
      (hr : h.running = true) (hj : h.registry.get? id = some j)
      (hb : h.bus.subscribe id = .ok (s, b)) :
      Happens h (.openJob id keepAlive now)
        ((h.withBus b).enter ⟨some id, .connecting, some (.snapshot j), some s, some t⟩)
        [.subscribe id]
  | openedAll {keepAlive now : Nat} {t : Timer} (hr : h.running = true) :
      Happens h (.openAll keepAlive now)
        ((h.withBus h.bus.subscribeAll.2).enter
          ⟨none, .streaming, none, some h.bus.nextId, some t⟩) [.subscribeAll]
  | polled {k : Nat} {timerFirst : Bool} {now : Nat} {c c' : Channel} {p : Poll}
      {as : List Bus.Act} (hk : h.channels[k]? = some c) (hp : Channel.Polled h.bus c p c' as)
      (he : c.pollWith timerFirst h.bus now = (p, c', h.bus.acts as)) :
      Happens h (.poll k timerFirst now) ((h.withBus (h.bus.acts as)).setChannel k c') as
  | closed {k : Nat} {c : Channel} (hk : h.channels[k]? = some c) :
      Happens h (.close k) ((h.withBus (h.bus.acts c.leaving)).setChannel k c.shut) c.leaving
  | shutDown : Happens h .shutDown { h.withBus h.bus.shutDown with running := false } [.shutDown]

section Opening

variable {r : Registry} {id : String} {keepAlive now : Nat}

theorem act_openJob (hr : h.running = true)
    (ho : Channel.openJob h.registry id keepAlive now = .ok (c, r)) :
    h.act (.openJob id keepAlive now) = { h with registry := r }.enter c := by
  simp only [act, hr, ↓reduceIte, ho, accept]

theorem act_openJob_of_error {e : OpenError}
    (ho : Channel.openJob h.registry id keepAlive now = .error e) :
    h.act (.openJob id keepAlive now) = h := by
  simp only [act, ho, accept, ite_self]

theorem happens_openJob (hr : h.running = true) (id : String) (keepAlive now : Nat) :
    ∃ as, Happens h (.openJob id keepAlive now) (h.act (.openJob id keepAlive now)) as := by
  cases ho : Channel.openJob h.registry id keepAlive now with
  | error e =>
    rw [act_openJob_of_error ho]
    exact ⟨[], .refused rfl (fun _ ho => ho.elim) fun _ => rfl⟩
  | ok x =>
    rw [act_openJob hr ho]
    cases hj : h.registry.get? id with
    | none =>
      obtain rfl := Except.ok.inj ((Channel.openJob_unknown hj).symm.trans ho)
      exact ⟨_, .missed hr hj⟩
    | some j =>
      obtain ⟨s, t, b, hb, hr', hc⟩ := Channel.openJob_known hj ho
      rw [hr', hc]
      exact ⟨_, .opened hr hj hb⟩

end Opening

theorem happens (hs : h.Sound) (a : Act) : ∃ as, Happens h a (h.act a) as := by
  cases a with
  | operate now o =>
    by_cases hc : h.running ∧ h.allows o
    · rw [act, if_pos hc]
      exact ⟨_, .operated hc.1 hc.2⟩
    · rw [act, if_neg hc]
      exact ⟨_, .refused rfl (fun _ ho => ho.elim) fun _ => if_neg hc⟩
  | openJob id keepAlive now =>
    by_cases hr : h.running
    · exact happens_openJob hr id keepAlive now
    · rw [act, if_neg hr]
      exact ⟨[], .refused rfl (fun _ ho => ho.elim) fun _ => rfl⟩
  | openAll keepAlive now =>
    by_cases hr : h.running
    · simp only [act, hr, ↓reduceIte, Channel.openAll]
      cases ht : Timer.start? now keepAlive with
      | none => exact ⟨[], .refused rfl (fun _ ho => ho.elim) fun _ => rfl⟩
      | some t => exact ⟨_, .openedAll hr⟩
    · rw [act, if_neg hr]
      exact ⟨[], .refused rfl (fun _ ho => ho.elim) fun _ => rfl⟩
  | poll k timerFirst now =>
    simp only [act]
    cases hk : h.channels[k]? with
    | none =>
      exact ⟨[], .refused rfl (fun _ ho => ho ▸ hk) fun _ => rfl⟩
    | some c =>
      obtain ⟨p, c', as, he, hp⟩ :=
        Channel.polled_pollWith (hs.shape hk) (hs.holds hk) timerFirst now
      simp only [he]
      exact ⟨as, .polled hk hp he⟩
  | close k =>
    simp only [act]
    cases hk : h.channels[k]? with
    | none => exact ⟨[], .refused rfl (fun _ ho => ho ▸ hk) fun _ => rfl⟩
    | some c =>
      simp only [Channel.close_eq (hs.shape hk) (hs.holds hk)]
      exact ⟨_, .closed hk⟩
  | shutDown => exact ⟨_, .shutDown⟩

theorem Happens.bus_eq (hh : Happens h a h' as) : h'.bus = h.bus.acts as := by
  cases hh with
  | operated _ _ => exact Registry.bus_apply ..
  | opened _ _ hb => exact (Bus.act_subscribe hb).symm
  | _ => rfl

theorem Happens.running_eq (hh : Happens h a h' as) (ha : a.isShutDown = false) :
    h'.running = h.running := by
  cases hh with
  | shutDown => cases ha
  | _ => rfl

/-! ## What others do to a channel -/

theorem Happens.not_isShutDown (hh : Happens h a h' as) (ha : a.isShutDown = false) :
    ∀ x ∈ as, x.isShutDown = false := by
  have huse {c : Channel} {x : Bus.Act} (hx : ∃ s u, c.subscription = some s ∧ x = .use s u) :
      x.isShutDown = false := by
    obtain ⟨s, u, -, rfl⟩ := hx
    rfl
  cases hh with
  | operated _ _ => exact fun x hx => (Registry.effect ..).of_mem hx |>.1
  | polled _ hp _ => exact fun x hx => huse (hp.uses x hx)
  | closed _ => exact fun x hx => huse (Channel.leaving_uses _ x hx)
  | shutDown => cases ha
  | opened _ _ _ | openedAll _ => exact List.forall_mem_singleton.mpr rfl
  | _ => exact List.forall_mem_nil _

theorem Happens.foreign (hh : Happens h a h' as) (hs : h.Sound) (hk : h.channels[k]? = some c)
    (hc : c.subscription = some s) (ho : ¬a.On k) : ∀ x ∈ as, x.Foreign s := by
  have huse {k' : Nat} {c' : Channel} (hk' : h.channels[k']? = some c') (hne : k' ≠ k)
      {x : Bus.Act} (hx : ∃ s u, c'.subscription = some s ∧ x = .use s u) : x.Foreign s := by
    obtain ⟨s', u, hc', rfl⟩ := hx
    intro u' he
    cases he
    exact hne (hs.distinct hk' hk hc' hc)
  cases hh with
  | operated hr ha =>
    intro x hx u he
    have := ((Registry.effect ..).of_mem hx).2 s u he
    subst this
    have hown : h.owns s = true :=
      List.any_eq_true.mpr ⟨c, List.mem_of_getElem? hk, decide_eq_true hc⟩
    simp [allows, hown] at ha
  | polled hk' hp _ => exact fun x hx => huse hk' ho (hp.uses x hx)
  | closed hk' => exact fun x hx => huse hk' ho (Channel.leaving_uses _ x hx)
  | opened _ _ _ | openedAll _ | shutDown =>
    refine List.forall_mem_singleton.mpr fun u he => ?_
    cases he
  | _ => exact List.forall_mem_nil _

theorem Happens.told_eq (hh : Happens h a h' as) (id : String) :
    h.told id a = Registry.eventsOf id as := by
  have huse {c : Channel} {as : List Bus.Act}
      (hx : ∀ x ∈ as, ∃ s u, c.subscription = some s ∧ x = .use s u) :
      as.flatMap Bus.Act.events = [] := by
    refine List.flatMap_eq_nil_iff.mpr fun x hm => ?_
    obtain ⟨s, u, -, rfl⟩ := hx x hm
    rfl
  cases hh with
  | refused _ _ ht => exact ht id
  | operated hr ha => exact if_pos ⟨hr, ha⟩
  | polled _ hp _ => simp only [told, Registry.eventsOf, huse hp.uses, List.filter_nil]
  | closed _ =>
    simp only [told, Registry.eventsOf, huse (Channel.leaving_uses _), List.filter_nil]
  | _ => rfl

theorem told_of_not_running (hr : h.running = false) (id : String) (a : Act) :
    h.told id a = [] := by
  cases a <;> simp [told, hr]

theorem Happens.receiver?_eq (hh : Happens h a h' as) (hs : h.Sound)
    (hk : h.channels[k]? = some c) (hc : c.subscription = some s) (ho : ¬a.On k) {r : Receiver}
    (hr : h.bus.receiver? s = some r) (hcon : r.connected = h.running) :
    ∃ q, h'.bus.receiver? s = some { r with queue := q, connected := h'.running } ∧
      ∀ id, r.topic = .job id → q = r.queue ++ h.told id a := by
  cases ha : a.isShutDown with
  | true =>
    cases hh with
    | shutDown =>
      refine ⟨r.queue, ?_, fun id _ => (List.append_nil _).symm⟩
      exact (Bus.receiver?_shutDown h.bus s).trans (by rw [hr]; rfl)
    | refused hf _ _ =>
      rw [hf] at ha
      cases ha
    | _ => cases ha
  | false =>
    have hf : ∀ x ∈ as, x.Foreign s ∧ x.isShutDown = false := fun x hx =>
      ⟨hh.foreign hs hk hc ho x hx, hh.not_isShutDown ha x hx⟩
    let new := if r.connected then (as.flatMap Bus.Act.events).filter (r.topic.covers ·.jobId) else []
    refine ⟨r.queue ++ new, ?_, fun id ht => congrArg (r.queue ++ ·) ?_⟩
    · rw [hh.bus_eq, hs.bus.receiver?_acts hr hf, hh.running_eq ha, ← hcon]
      rfl
    · simp only [new, hcon, ht]
      cases hrun : h.running with
      | true => exact (hh.told_eq id).symm
      | false => exact (told_of_not_running hrun id a).symm

/-! ## One channel in one act -/

structure Entered (b : Bus) (c : Channel) (as : List Bus.Act) : Prop where
  shape : c.Shape
  handle : ∀ s, c.subscription = some s →
    s = b.nextId ∧ (b.acts as).receiver? s = some ⟨s, c.topic, [], true, true⟩

/-- Where a channel comes from. -/
inductive Comes (h : Hub) (k : Nat) : Act → List Bus.Act → Channel → Prop where
  | kept {a : Act} {as : List Bus.Act} {c : Channel} (hk : h.channels[k]? = some c)
      (ho : ¬a.On k) : Comes h k a as c
  | polled {timerFirst : Bool} {now : Nat} {c c' : Channel} {p : Poll} {as : List Bus.Act}
      (hk : h.channels[k]? = some c) (hp : Channel.Polled h.bus c p c' as)
      (he : c.pollWith timerFirst h.bus now = (p, c', h.bus.acts as)) :
      Comes h k (.poll k timerFirst now) as c'
  | closed {c : Channel} (hk : h.channels[k]? = some c) : Comes h k (.close k) c.leaving c.shut
  | entered {a : Act} {as : List Bus.Act} {c : Channel} (hk : k = h.channels.length)
      (hr : h.running = true) (ha : a.isShutDown = false) (hc : Entered h.bus c as) : Comes h k a as c

theorem channel_enter {n : Channel} (hk : (h.enter n).channels[k]? = some c) :
    h.channels[k]? = some c ∨ k = h.channels.length ∧ n = c := by
  rcases Nat.lt_or_ge k h.channels.length with hlt | hge
  · exact .inl ((List.getElem?_append_left hlt).symm.trans hk)
  · have hk : (h.channels ++ [n])[k]? = some c := hk
    rw [List.getElem?_append_right hge] at hk
    obtain ⟨hz, hn⟩ := List.getElem?_eq_some_iff.mp hk
    have hz : k - h.channels.length < 1 := hz
    exact .inr ⟨by omega, by simpa using hn⟩

theorem channel_setChannel {k' : Nat} {n : Channel}
    (hk : (h.setChannel k' n).channels[k]? = some c) :
    k' = k ∧ n = c ∨ k' ≠ k ∧ h.channels[k]? = some c := by
  by_cases hkk : k' = k
  · subst hkk
    have hk : (h.channels.set k' n)[k']? = some c := hk
    rw [List.getElem?_set_self'] at hk
    obtain ⟨_, _, hn⟩ := Option.map_eq_some_iff.mp hk
    exact .inl ⟨rfl, hn⟩
  · exact .inr ⟨hkk, (List.getElem?_set_ne hkk).symm.trans hk⟩

theorem Happens.comes (hh : Happens h a h' as) (hs : h.Sound) (hk : h'.channels[k]? = some c) :
    Comes h k a as c := by
  have enter {b : Bus} {n : Channel} (hr : h.running = true) (ha : a.isShutDown = false) (ho : ¬a.On k)
      (he : Entered h.bus n as) (hk : ((h.withBus b).enter n).channels[k]? = some c) :
      Comes h k a as c := by
    rcases channel_enter hk with hk' | ⟨hlen, rfl⟩
    · exact .kept hk' ho
    · exact .entered hlen hr ha he
  cases hh with
  | refused _ hn _ =>
    refine .kept hk fun ho => ?_
    rw [hn k ho] at hk
    cases hk
  | operated _ _ | shutDown => exact .kept hk id
  | missed hr _ =>
    refine enter (b := h.bus) hr rfl id ⟨.missing, fun s hn => ?_⟩ hk
    cases hn
  | opened hr _ hb =>
    refine enter hr rfl id ⟨.opened, fun s hn => ?_⟩ hk
    obtain rfl := Option.some.inj hn
    rw [Bus.acts, List.foldl_cons, List.foldl_nil, Bus.act_subscribe hb]
    exact ⟨(Bus.eq_of_subscribe hb).1, hs.bus.receiver?_subscribe hb⟩
  | openedAll hr =>
    refine enter hr rfl id ⟨.live (.inr rfl), fun s hn => ?_⟩ hk
    obtain rfl := Option.some.inj hn
    exact ⟨rfl, hs.bus.receiver?_subscribeAll⟩
  | polled hk' hp he =>
    rcases channel_setChannel hk with ⟨rfl, rfl⟩ | ⟨hne, hk⟩
    · exact .polled hk' hp he
    · exact .kept hk hne
  | closed hk' =>
    rcases channel_setChannel hk with ⟨rfl, rfl⟩ | ⟨hne, hk⟩
    · exact .closed hk'
    · exact .kept hk hne

theorem Comes.handle (hc : Comes h k a as c) (hn : c.subscription = some s) :
    (∃ c', h.channels[k]? = some c' ∧ c'.subscription = some s) ∨
      k = h.channels.length ∧ s = h.bus.nextId := by
  cases hc with
  | kept hk _ => exact .inl ⟨c, hk, hn⟩
  | polled hk hp _ => exact .inl ⟨_, hk, hp.handle hn⟩
  | closed _ => cases hn
  | entered hk _ _ he => exact .inr ⟨hk, (he.handle s hn).1⟩

theorem Sound.ne_nextId (hs : h.Sound) (hk : h.channels[k]? = some c)
    (hc : c.subscription = some s) : s ≠ h.bus.nextId := by
  obtain ⟨r, hr, -⟩ := hs.served hk hc
  rintro rfl
  rw [hs.bus.receiver?_nextId] at hr
  cases hr

theorem Comes.served (hm : Comes h k a as c) (hh : Happens h a h' as) (hs : h.Sound)
    (hc : c.subscription = some s) :
    ∃ r, h'.bus.receiver? s = some r ∧ r.topic = c.topic ∧ r.active = true ∧
      r.connected = h'.running := by
  cases hm with
  | kept hk ho =>
    obtain ⟨r, hr, ht, ha, hcon⟩ := hs.served hk hc
    obtain ⟨q, hq, -⟩ := hh.receiver?_eq hs hk hc ho hr hcon
    exact ⟨_, hq, ht, ha, rfl⟩
  | polled hk hp _ =>
    obtain ⟨r, hr, ht, ha, hcon⟩ := hs.served hk (hp.handle hc)
    obtain ⟨q, hq, -⟩ := hp.receiver?_eq hc hr
    refine ⟨r.withQueue q, hh.bus_eq ▸ hq, ht.trans ?_, ha, hcon.trans (hh.running_eq rfl).symm⟩
    rw [Channel.topic, Channel.topic, hp.target_eq]
  | closed _ => cases hc
  | entered _ hr ha he =>
    exact ⟨_, hh.bus_eq ▸ (he.handle s hc).2, rfl, rfl, (hr.symm.trans (hh.running_eq ha).symm)⟩

theorem Comes.shape (hm : Comes h k a as c) (hs : h.Sound) : c.Shape := by
  cases hm with
  | kept hk _ => exact hs.shape hk
  | polled _ hp _ => exact hp.shape
  | closed _ => exact .closed
  | entered _ _ _ he => exact he.shape

/-! ## Runs -/

theorem Sound.act (hs : h.Sound) (a : Act) : (h.act a).Sound := by
  obtain ⟨as, hh⟩ := happens hs a
  constructor
  · exact hh.bus_eq ▸ hs.bus.acts as
  · intro k c hk
    exact (hh.comes hs hk).shape hs
  · intro k s c hk hc
    exact (hh.comes hs hk).served hh hs hc
  · intro k k' s c c' hk hk' hc hc'
    rcases (hh.comes hs hk).handle hc with ⟨c, ho, hn⟩ | ⟨he, hn⟩ <;>
      rcases (hh.comes hs hk').handle hc' with ⟨c', ho', hn'⟩ | ⟨he', hn'⟩
    · exact hs.distinct ho ho' hn hn'
    · exact absurd hn' (hs.ne_nextId ho hn)
    · exact absurd hn (hs.ne_nextId ho' hn')
    · exact he.trans he'.symm

theorem Sound.run (hs : h.Sound) (as : List Act) : (h.run as).Sound := by
  induction as generalizing h with
  | nil => exact hs
  | cons a as ih => exact ih (hs.act a)

theorem sound_start {c : JobsConfig} {r : Registry} (h : Registry.new c = some r) :
    (start r).Sound := by
  refine ⟨Registry.wellFormed_bus h [], fun hk => ?_, fun hk => ?_, fun hk => ?_⟩
  all_goals cases hk

end Hub

end JobConsole.Live
