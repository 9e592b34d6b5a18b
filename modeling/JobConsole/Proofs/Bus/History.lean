import JobConsole.Bus.Basic
import JobConsole.Proofs.Keyed

/-! # Histories of a bus

What can happen to a bus, one act at a time. Unsubscribing is two acts, so others may come between
them. Whatever happens, the table of subscribers and the receivers keep fitting together: who stands
in the table under a topic follows that topic, and who is connected stands in the table.
-/

namespace JobConsole

def Topic.covers : Topic → String → Bool
  | job id, k => k = id
  | wildcard, _ => true

namespace Receiver

def withQueue (r : Receiver) (q : List Event) : Receiver := { r with queue := q }

def closed (r : Receiver) : Receiver := { r with connected := false, active := false }

/-- A receiver whose bus has gone away. -/
def cutOff (r : Receiver) : Receiver := { r with connected := false }

end Receiver

namespace Bus

/-- What the holder of a handle does with it. -/
inductive Use where
  | receive
  /-- The first step of unsubscribing. -/
  | close
  /-- The second step. -/
  | remove
  /-- Takes what is left of both steps, and discards the handle. -/
  | discard
  deriving DecidableEq, Repr

inductive Act where
  | publish (e : Event)
  | subscribe (job : String)
  | subscribeAll
  | use (s : Nat) (u : Use)
  | shutDown

/-- The second step of unsubscribing, once the first has been taken. -/
def finishLeaving (b : Bus) (s : Nat) : Bus :=
  match b.receiver? s with
  | some r => if r.active then b else b.removeSubscriber r.topic s
  | none => b

def use (b : Bus) (s : Nat) : Use → Bus
  | .receive => (b.tryReceive s).2
  | .close => b.closeReceiver s
  | .remove => b.finishLeaving s
  | .discard => (b.finishLeaving s).dropReceiver s

/-- Receiving an event does to the bus what trying to receive one does. -/
theorem use_receive (b : Bus) (s : Nat) : b.use s .receive = (b.receive s).2 := by
  rw [use, receive]
  split
  next he => rw [he]
  next he => rw [he]

def act (b : Bus) : Act → Bus
  | .publish e => b.publish e
  | .subscribe job =>
    match b.subscribe job with
    | .ok (_, b') => b'
    | .error _ => b
  | .subscribeAll => b.subscribeAll.2
  | .use s u => b.use s u
  | .shutDown => b.shutDown

def acts (b : Bus) (as : List Act) : Bus := as.foldl act b

def subscribers (b : Bus) : Topic → List Nat
  | .job id => b.subscribersOf id
  | .wildcard => b.wildcard

/-- The table and the receivers fit together. -/
structure WellFormed (b : Bus) : Prop where
  receiver_lt : ∀ r ∈ b.receivers, r.id < b.nextId
  subscriber_lt : ∀ t, ∀ s ∈ b.subscribers t, s < b.nextId
  topic_eq : ∀ {t s r}, s ∈ b.subscribers t → b.receiver? s = some r → r.topic = t
  enrolled : ∀ {s r}, b.receiver? s = some r → r.connected = true → s ∈ b.subscribers r.topic
  active_of_connected : ∀ r ∈ b.receivers, r.connected = true → r.active = true

variable {b : Bus} {s : Nat} {r : Receiver} {t : Topic}

/-! ## The table -/

theorem lookup_filter_ne (l : List (String × List Nat)) (job k : String) :
    (l.filter (·.1 ≠ job)).lookup k = if k = job then none else l.lookup k := by
  induction l with
  | nil => simp
  | cons e l ih =>
    obtain ⟨m, ids⟩ := e
    rw [List.filter_cons, Dict.lookup_cons_eq]
    by_cases hm : m = job
    · simp only [hm, ne_eq, not_true_eq_false, decide_false, Bool.false_eq_true, ↓reduceIte, ih]
      split <;> rfl
    · simp only [ne_eq, hm, not_false_eq_true, decide_true, ↓reduceIte, Dict.lookup_cons_eq, ih]
      by_cases hk : k = m
      · rw [if_pos hk, if_neg (hk ▸ hm), if_pos hk]
      · rw [if_neg hk, if_neg hk]

theorem subscribersOf_setSubscribers (b : Bus) (job k : String) (ids : List Nat) :
    (b.setSubscribers job ids).subscribersOf k = if k = job then ids else b.subscribersOf k := by
  unfold setSubscribers subscribersOf
  by_cases hi : ids = []
  · simp only [hi, List.isEmpty_nil, ↓reduceIte, lookup_filter_ne]
    split <;> rfl
  · have he : ids.isEmpty = false := by simpa using hi
    simp only [he, Bool.false_eq_true, ↓reduceIte, Dict.lookup_cons_eq, lookup_filter_ne]
    split <;> rfl

theorem subscribers_setSubscribers (b : Bus) (job : String) (ids : List Nat) (t : Topic) :
    (b.setSubscribers job ids).subscribers t = if t = .job job then ids else b.subscribers t := by
  cases t with
  | wildcard => rfl
  | job k => simpa [subscribers] using subscribersOf_setSubscribers b job k ids

theorem subscribers_removeSubscriber (b : Bus) (t u : Topic) (s : Nat) :
    (b.removeSubscriber t s).subscribers u =
      if u = t then (b.subscribers t).filter (· ≠ s) else b.subscribers u := by
  cases t with
  | wildcard => cases u <;> rfl
  | job k => exact subscribers_setSubscribers ..

theorem subscribers_publish (b : Bus) (e : Event) (t : Topic) :
    (b.publish e).subscribers t =
      if t.covers e.jobId then (b.subscribers t).filter b.isConnected else b.subscribers t := by
  cases t with
  | wildcard => rfl
  | job k =>
    refine (subscribersOf_setSubscribers b e.jobId k _).trans ?_
    by_cases hk : k = e.jobId <;> simp [Topic.covers, subscribers, hk, eq_comm]

/-! ## The receivers -/

theorem id_of_receiver? (h : b.receiver? s = some r) : r.id = s := Keyed.key_of_find? h

theorem mem_of_receiver? (h : b.receiver? s = some r) : r ∈ b.receivers :=
  List.mem_of_find?_eq_some h

theorem isConnected_of_receiver? (h : b.receiver? s = some r) : b.isConnected s = r.connected := by
  simp only [isConnected, h]

@[simp] theorem receivers_removeSubscriber (b : Bus) (t : Topic) (s : Nat) :
    (b.removeSubscriber t s).receivers = b.receivers := by
  cases t <;> rfl

@[simp] theorem nextId_removeSubscriber (b : Bus) (t : Topic) (s : Nat) :
    (b.removeSubscriber t s).nextId = b.nextId := by
  cases t <;> rfl

theorem receiver?_publish (b : Bus) (e : Event) (s : Nat) :
    (b.publish e).receiver? s = (b.receiver? s).map (deliver e (b.audience e.jobId)) :=
  Keyed.find?_map (fun r => by unfold deliver; split <;> rfl) _ _

theorem receiver?_updateReceiver {f : Receiver → Receiver} (hf : ∀ r, (f r).id = r.id) (b : Bus)
    (u s : Nat) :
    (b.updateReceiver u f).receiver? s =
      (b.receiver? s).map fun r => if r.id = u then f r else r :=
  Keyed.find?_map (fun r => by split <;> simp [hf]) _ _

theorem receiver?_addReceiver (b : Bus) (t : Topic) (s : Nat) :
    (b.addReceiver t).receiver? s =
      (b.receiver? s).or (if b.nextId = s then some ⟨b.nextId, t, [], true, true⟩ else none) := by
  simp only [receiver?, addReceiver, List.find?_append, List.find?_singleton, decide_eq_true_eq]

theorem receiver?_shutDown (b : Bus) (s : Nat) :
    b.shutDown.receiver? s = (b.receiver? s).map Receiver.cutOff :=
  Keyed.find?_map (f := Receiver.cutOff) (fun _ => rfl) b.receivers s

theorem receiver?_closeReceiver (b : Bus) (u s : Nat) :
    (b.closeReceiver u).receiver? s =
      (b.receiver? s).map fun r => if r.id = u then r.closed else r :=
  receiver?_updateReceiver (f := Receiver.closed) (fun _ => rfl) b u s

def forget (b : Bus) (u : Nat) : Bus := { b with receivers := b.receivers.filter (·.id ≠ u) }

theorem receiver?_forget (b : Bus) (u s : Nat) :
    (b.forget u).receiver? s = if s = u then none else b.receiver? s := by
  simp only [receiver?, forget, List.find?_filter]
  split
  next h => simp [h]
  next h =>
    congr 1
    funext r
    by_cases hr : r.id = s <;> simp [hr, h]

theorem subscribers_forget (b : Bus) (u : Nat) (t : Topic) :
    (b.forget u).subscribers t = b.subscribers t := by
  cases t <;> rfl

/-! ## Keeping the table in order -/

/-- A change of receivers that keeps who they are and connects none. -/
structure Mild (f : Receiver → Receiver) : Prop where
  id_eq : ∀ r, (f r).id = r.id
  topic_eq : ∀ r, (f r).topic = r.topic
  connected : ∀ r, (f r).connected = true → r.connected = true ∧ (f r).active = r.active

theorem Mild.id : Mild id := ⟨fun _ => rfl, fun _ => rfl, fun _ h => ⟨h, rfl⟩⟩

theorem mild_deliver (e : Event) (ids : List Nat) : Mild (deliver e ids) := by
  constructor <;> intro r <;> unfold deliver <;> split
  all_goals first | rfl | exact fun h => ⟨h, rfl⟩

theorem mild_withQueue (q : List Event) : Mild (·.withQueue q) :=
  ⟨fun _ => rfl, fun _ => rfl, fun _ h => ⟨h, rfl⟩⟩

theorem mild_closed : Mild Receiver.closed := by
  refine ⟨fun _ => rfl, fun _ => rfl, fun r h => ?_⟩
  cases h

theorem mild_cutOff : Mild Receiver.cutOff := by
  refine ⟨fun _ => rfl, fun _ => rfl, fun r h => ?_⟩
  cases h

theorem Mild.at {f : Receiver → Receiver} (hf : Mild f) (u : Nat) :
    Mild fun r => if r.id = u then f r else r := by
  constructor <;> intro r <;> split
  · exact hf.id_eq r
  · rfl
  · exact hf.topic_eq r
  · rfl
  · exact hf.connected r
  · exact fun h => ⟨h, rfl⟩

/-- Receivers change mildly, and nobody enters the table or is lost from it while connected. -/
theorem WellFormed.map {b' : Bus} {f : Receiver → Receiver} (h : b.WellFormed) (hf : Mild f)
    (hr : b'.receivers = b.receivers.map f) (hn : b'.nextId = b.nextId)
    (hs : ∀ t, ∀ s ∈ b'.subscribers t, s ∈ b.subscribers t)
    (he : ∀ s r, b.receiver? s = some r → (f r).connected = true → s ∈ b.subscribers r.topic →
      s ∈ b'.subscribers r.topic) : b'.WellFormed := by
  have hfind (s : Nat) : b'.receiver? s = (b.receiver? s).map f := by
    unfold receiver?
    rw [hr, Keyed.find?_map hf.id_eq]
  constructor
  · intro r hm
    rw [hr] at hm
    obtain ⟨q, hq, rfl⟩ := List.mem_map.mp hm
    rw [hf.id_eq, hn]
    exact h.receiver_lt q hq
  · intro t s hm
    rw [hn]
    exact h.subscriber_lt t s (hs t s hm)
  · intro t s r hm hr'
    rw [hfind] at hr'
    obtain ⟨q, hq, rfl⟩ := Option.map_eq_some_iff.mp hr'
    rw [hf.topic_eq]
    exact h.topic_eq (hs t s hm) hq
  · intro s r hr' hcon
    rw [hfind] at hr'
    obtain ⟨q, hq, rfl⟩ := Option.map_eq_some_iff.mp hr'
    rw [hf.topic_eq]
    exact he s q hq hcon (h.enrolled hq (hf.connected q hcon).1)
  · intro r hm hcon
    rw [hr] at hm
    obtain ⟨q, hq, rfl⟩ := List.mem_map.mp hm
    obtain ⟨hq', ha⟩ := hf.connected q hcon
    exact ha ▸ h.active_of_connected q hq hq'

theorem WellFormed.publish (h : b.WellFormed) (e : Event) : (b.publish e).WellFormed := by
  refine h.map (mild_deliver e (b.audience e.jobId)) rfl rfl ?_ ?_
  · intro t s hs
    rw [subscribers_publish] at hs
    split at hs
    · exact List.mem_of_mem_filter hs
    · exact hs
  · intro s r hr hcon hs
    rw [subscribers_publish]
    split
    · refine List.mem_filter.mpr ⟨hs, ?_⟩
      rw [isConnected_of_receiver? hr]
      exact ((mild_deliver _ _).connected r hcon).1
    · exact hs

theorem WellFormed.updateReceiver {f : Receiver → Receiver} (h : b.WellFormed) (hf : Mild f)
    (u : Nat) : (b.updateReceiver u f).WellFormed :=
  h.map (hf.at u) rfl rfl (by intro t s hs; cases t <;> exact hs)
    (by intro s r _ _ hs; cases ht : r.topic <;> exact ht ▸ hs)

theorem WellFormed.tryReceive (h : b.WellFormed) (s : Nat) : (b.tryReceive s).2.WellFormed := by
  unfold Bus.tryReceive
  split
  · split
    next rest _ => exact h.updateReceiver (mild_withQueue rest) s
    next => exact h
  · exact h

theorem WellFormed.closeReceiver (h : b.WellFormed) (s : Nat) : (b.closeReceiver s).WellFormed :=
  h.updateReceiver mild_closed s

theorem WellFormed.removeSubscriber (h : b.WellFormed) (t : Topic) {s : Nat}
    (hs : ∀ r, b.receiver? s = some r → r.connected = false) :
    (b.removeSubscriber t s).WellFormed := by
  refine h.map Mild.id (by simp) (by simp) ?_ ?_
  · intro u v hv
    rw [subscribers_removeSubscriber] at hv
    split at hv
    next hu => exact hu ▸ List.mem_of_mem_filter hv
    next => exact hv
  · intro v r hr hcon hv
    rw [subscribers_removeSubscriber]
    split
    next hu =>
      refine List.mem_filter.mpr ⟨hu ▸ hv, ?_⟩
      have hne : v ≠ s := by
        rintro rfl
        simp [hs r hr] at hcon
      simpa using hne
    next => exact hv

theorem WellFormed.finishLeaving (h : b.WellFormed) (s : Nat) : (b.finishLeaving s).WellFormed := by
  unfold Bus.finishLeaving
  split
  next r hr =>
    split
    next => exact h
    next ha =>
      refine h.removeSubscriber r.topic fun q hq => ?_
      obtain rfl : r = q := Option.some.inj (hr.symm.trans hq)
      by_contra hc
      exact ha (h.active_of_connected r (mem_of_receiver? hr) (by simpa using hc))
  next => exact h

theorem WellFormed.unsubscribe (h : b.WellFormed) (s : Nat) : (b.unsubscribe s).WellFormed := by
  unfold Bus.unsubscribe
  split
  next r hr =>
    split
    next =>
      refine (h.closeReceiver s).removeSubscriber r.topic fun q hq => ?_
      rw [receiver?_closeReceiver, hr, Option.map_some, if_pos (id_of_receiver? hr)] at hq
      exact Option.some.inj hq ▸ rfl
    next => exact h
  next => exact h

theorem WellFormed.forget (h : b.WellFormed) (u : Nat) : (b.forget u).WellFormed := by
  have hsub := subscribers_forget b u
  have hfind {s : Nat} {r : Receiver} (hr : (b.forget u).receiver? s = some r) :
      b.receiver? s = some r := by
    rw [receiver?_forget] at hr
    split at hr
    · cases hr
    · exact hr
  constructor
  · exact fun r hr => h.receiver_lt r (List.mem_of_mem_filter hr)
  · exact fun t s hs => h.subscriber_lt t s (hsub t ▸ hs)
  · exact fun hs hr => h.topic_eq (hsub _ ▸ hs) (hfind hr)
  · exact fun hr hc => hsub _ ▸ h.enrolled (hfind hr) hc
  · exact fun r hr => h.active_of_connected r (List.mem_of_mem_filter hr)

theorem WellFormed.dropReceiver (h : b.WellFormed) (s : Nat) : (b.dropReceiver s).WellFormed :=
  (h.unsubscribe s).forget s

theorem WellFormed.shutDown (h : b.WellFormed) : b.shutDown.WellFormed := by
  refine h.map mild_cutOff rfl rfl ?_ ?_
  · intro t s hs
    cases t <;> simp [subscribers, subscribersOf, Bus.shutDown] at hs
  · intro s r _ hc
    cases hc

theorem WellFormed.receiver?_nextId (h : b.WellFormed) : b.receiver? b.nextId = none := by
  cases hr : b.receiver? b.nextId with
  | none => rfl
  | some r =>
    have := h.receiver_lt r (mem_of_receiver? hr)
    rw [id_of_receiver? hr] at this
    exact absurd this (Nat.lt_irrefl _)

theorem WellFormed.enter {b' : Bus} (h : b.WellFormed) (t : Topic)
    (hr : b'.receivers = (b.addReceiver t).receivers) (hn : b'.nextId = b.nextId + 1)
    (hs : ∀ u, b'.subscribers u = if u = t then b.subscribers t ++ [b.nextId] else b.subscribers u) :
    b'.WellFormed := by
  have hfind (s : Nat) : b'.receiver? s =
      (b.receiver? s).or (if b.nextId = s then some ⟨b.nextId, t, [], true, true⟩ else none) := by
    rw [← receiver?_addReceiver]
    unfold receiver?
    rw [hr]
  have hold {u : Topic} {s : Nat} (hm : s ∈ b'.subscribers u) :
      s ∈ b.subscribers u ∨ (u = t ∧ s = b.nextId) := by
    rw [hs] at hm
    split at hm
    next hu => simpa [hu] using hm
    next => exact .inl hm
  constructor
  · intro r hm
    rw [hr] at hm
    rw [hn]
    rcases List.mem_append.mp hm with hm | hm
    · exact Nat.lt_succ_of_lt (h.receiver_lt r hm)
    · exact List.mem_singleton.mp hm ▸ Nat.lt_succ_self _
  · intro u s hm
    rw [hn]
    rcases hold hm with hm | ⟨_, rfl⟩
    · exact Nat.lt_succ_of_lt (h.subscriber_lt u s hm)
    · exact Nat.lt_succ_self _
  · intro u s r hm hr'
    rw [hfind] at hr'
    rcases hold hm with hm | ⟨rfl, rfl⟩
    · have hlt := h.subscriber_lt u s hm
      rw [if_neg (Nat.ne_of_gt hlt), Option.or_none] at hr'
      exact h.topic_eq hm hr'
    · rw [h.receiver?_nextId, if_pos rfl, Option.none_or] at hr'
      exact Option.some.inj hr' ▸ rfl
  · intro s r hr' hc
    rw [hfind] at hr'
    rw [hs]
    rcases Option.or_eq_some_iff.mp hr' with hq | ⟨_, hq⟩
    · have hm := h.enrolled hq hc
      split
      next hu => exact List.mem_append_left _ (hu ▸ hm)
      next => exact hm
    · split at hq
      next he =>
        obtain rfl := Option.some.inj hq
        rw [if_pos rfl]
        exact List.mem_append_right _ (he ▸ List.mem_singleton_self _)
      next => cases hq
  · intro r hm hc
    rw [hr] at hm
    rcases List.mem_append.mp hm with hm | hm
    · exact h.active_of_connected r hm hc
    · exact List.mem_singleton.mp hm ▸ rfl

theorem eq_of_subscribe {job : String} {b' : Bus} (h : b.subscribe job = .ok (s, b')) :
    s = b.nextId ∧
      b' = (b.addReceiver (.job job)).setSubscribers job (b.subscribersOf job ++ [b.nextId]) := by
  simp only [subscribe] at h
  split at h
  · cases h
  · obtain ⟨rfl, rfl⟩ := Prod.mk.inj (Except.ok.inj h)
    exact ⟨rfl, rfl⟩

theorem act_subscribe {job : String} {b' : Bus} (h : b.subscribe job = .ok (s, b')) :
    b.act (.subscribe job) = b' := by
  simp only [act, h]

theorem eq_of_subscribe_error {job : String} {e : Error} (h : b.subscribe job = .error e) :
    e = .tooManySubscribers job (b.subscriberCount job) ∧ 0 < b.limit ∧
      b.limit ≤ b.subscriberCount job := by
  simp only [subscribe] at h
  split at h
  next hl => exact ⟨(Except.error.inj h).symm, hl⟩
  · cases h

theorem WellFormed.subscribe (h : b.WellFormed) {job : String} {b' : Bus}
    (hb : b.subscribe job = .ok (s, b')) : b'.WellFormed := by
  obtain ⟨rfl, rfl⟩ := eq_of_subscribe hb
  exact h.enter (.job job) rfl rfl (subscribers_setSubscribers _ job _)

theorem WellFormed.subscribeAll (h : b.WellFormed) : b.subscribeAll.2.WellFormed := by
  refine h.enter .wildcard rfl rfl fun u => ?_
  cases u <;> rfl

theorem wellFormed_new (limit : Nat) : (new limit).WellFormed := by
  constructor
  · intro r hr
    cases hr
  · intro t s hs
    cases t <;> cases hs
  · intro t s r _ hr
    cases hr
  · intro s r hr
    cases hr
  · intro r hr
    cases hr

theorem WellFormed.use (h : b.WellFormed) (s : Nat) (u : Use) : (b.use s u).WellFormed := by
  cases u with
  | receive => exact h.tryReceive s
  | close => exact h.closeReceiver s
  | remove => exact h.finishLeaving s
  | discard => exact (h.finishLeaving s).dropReceiver s

theorem WellFormed.act (h : b.WellFormed) (a : Act) : (b.act a).WellFormed := by
  cases a with
  | publish e => exact h.publish e
  | subscribe job =>
    simp only [Bus.act]
    split
    next hb => exact h.subscribe hb
    next => exact h
  | subscribeAll => exact h.subscribeAll
  | use s u => exact h.use s u
  | shutDown => exact h.shutDown

theorem WellFormed.acts (h : b.WellFormed) (as : List Act) : (b.acts as).WellFormed := by
  induction as generalizing b with
  | nil => exact h
  | cons a as ih => exact ih (h.act a)

end Bus

end JobConsole
