import JobConsole.Proofs.Bus.History

/-! # Delivery

What a receiver has given out, followed by what its queue holds, is what it held at first, followed by
the events on its topic that were published while it was connected. Nothing that other holders do
changes that.
-/

namespace JobConsole.Bus

def Act.events : Act → List Event
  | .publish e => [e]
  | _ => []

def Act.isShutDown : Act → Bool
  | .shutDown => true
  | _ => false

/-- The act does not give up the handle; receiving with it is allowed. -/
def Act.Keeps (s : Nat) (a : Act) : Prop := ∀ u, a = .use s u → u = .receive

def taken (b : Bus) (s : Nat) : Act → List Event
  | .use s' .receive => if s' = s then (b.tryReceive s).1.toList else []
  | _ => []

def takenBy (s : Nat) : Bus → List Act → List Event
  | _, [] => []
  | b, a :: as => b.taken s a ++ takenBy s (b.act a) as

def queueOf (b : Bus) (s : Nat) : List Event :=
  match b.receiver? s with
  | some r => r.queue
  | none => []

variable {b : Bus} {s u : Nat} {r : Receiver} {a : Act} {as : List Act} {k : String}

theorem queueOf_eq (h : b.receiver? s = some r) : b.queueOf s = r.queue := by
  simp only [queueOf, h]

/-! ## Other holders -/

theorem receiver?_updateReceiver_of_ne {f : Receiver → Receiver} (hf : ∀ r, (f r).id = r.id)
    (h : s ≠ u) : (b.updateReceiver u f).receiver? s = b.receiver? s := by
  rw [receiver?_updateReceiver hf]
  cases hr : b.receiver? s with
  | none => rfl
  | some r => rw [Option.map_some, if_neg (id_of_receiver? hr ▸ h)]

theorem receiver?_tryReceive_of_ne (h : s ≠ u) :
    (b.tryReceive u).2.receiver? s = b.receiver? s := by
  unfold tryReceive
  split
  · split
    next rest _ => exact receiver?_updateReceiver_of_ne (mild_withQueue rest).id_eq h
    next => rfl
  · rfl

theorem receiver?_closeReceiver_of_ne (h : s ≠ u) :
    (b.closeReceiver u).receiver? s = b.receiver? s :=
  receiver?_updateReceiver_of_ne mild_closed.id_eq h

theorem receiver?_removeSubscriber (b : Bus) (t : Topic) (u s : Nat) :
    (b.removeSubscriber t u).receiver? s = b.receiver? s := by
  unfold receiver?
  rw [receivers_removeSubscriber]

theorem receiver?_finishLeaving (b : Bus) (u s : Nat) :
    (b.finishLeaving u).receiver? s = b.receiver? s := by
  unfold finishLeaving
  split
  · split
    · rfl
    · exact receiver?_removeSubscriber ..
  · rfl

theorem receiver?_unsubscribe_of_ne (h : s ≠ u) :
    (b.unsubscribe u).receiver? s = b.receiver? s := by
  unfold unsubscribe
  split
  · split
    · exact (receiver?_removeSubscriber ..).trans (receiver?_closeReceiver_of_ne h)
    · rfl
  · rfl

theorem receiver?_dropReceiver (b : Bus) (u s : Nat) :
    (b.dropReceiver u).receiver? s = if s = u then none else b.receiver? s := by
  refine (receiver?_forget (b.unsubscribe u) u s).trans ?_
  split
  · rfl
  next h => exact receiver?_unsubscribe_of_ne h

theorem receiver?_use_of_ne (h : s ≠ u) (x : Use) : (b.use u x).receiver? s = b.receiver? s := by
  cases x with
  | receive => exact receiver?_tryReceive_of_ne h
  | close => exact receiver?_closeReceiver_of_ne h
  | remove => exact receiver?_finishLeaving b u s
  | discard =>
    refine (receiver?_dropReceiver (b.finishLeaving u) u s).trans ?_
    rw [if_neg h, receiver?_finishLeaving]

/-! ## One act -/

theorem tryReceive_nil (hr : b.receiver? s = some r) (hq : r.queue = []) :
    b.tryReceive s = (none, b) := by
  simp only [tryReceive, hr, hq]

theorem tryReceive_cons {e : Event} {rest : List Event} (hr : b.receiver? s = some r)
    (hq : r.queue = e :: rest) :
    b.tryReceive s = (some e, b.updateReceiver s (·.withQueue rest)) := by
  simp only [tryReceive, hr, hq]
  rfl

theorem receiver?_updateReceiver_withQueue (hr : b.receiver? s = some r) (q : List Event) :
    (b.updateReceiver s (·.withQueue q)).receiver? s = some (r.withQueue q) := by
  rw [receiver?_updateReceiver (mild_withQueue q).id_eq, hr, Option.map_some,
    if_pos (id_of_receiver? hr)]

theorem exists_queue_tryReceive (hr : b.receiver? s = some r) :
    ∃ q, (b.tryReceive s).1.toList ++ q = r.queue ∧
      (b.tryReceive s).2.receiver? s = some (r.withQueue q) := by
  cases hq : r.queue with
  | nil =>
    rw [tryReceive_nil hr hq]
    exact ⟨[], rfl, by simpa only [Receiver.withQueue, ← hq] using hr⟩
  | cons e rest =>
    rw [tryReceive_cons hr hq]
    exact ⟨rest, rfl, receiver?_updateReceiver_withQueue hr rest⟩

theorem WellFormed.mem_audience_iff (h : b.WellFormed) (hr : b.receiver? s = some r) :
    s ∈ b.audience k ↔ r.connected = true ∧ r.topic.covers k = true := by
  simp only [audience, List.mem_append, List.mem_filter, isConnected_of_receiver? hr]
  constructor
  · rintro (⟨hs, hc⟩ | ⟨hs, hc⟩)
    · have ht : r.topic = .job k := h.topic_eq (t := .job k) hs hr
      exact ⟨hc, by simp [ht, Topic.covers]⟩
    · have ht : r.topic = .wildcard := h.topic_eq (t := .wildcard) hs hr
      exact ⟨hc, by simp [ht, Topic.covers]⟩
  · rintro ⟨hc, hk⟩
    have hs := h.enrolled hr hc
    cases ht : r.topic with
    | wildcard =>
      rw [ht] at hs
      exact .inr ⟨hs, hc⟩
    | job i =>
      obtain rfl : k = i := by simpa [ht, Topic.covers] using hk
      rw [ht] at hs
      exact .inl ⟨hs, hc⟩

theorem WellFormed.receiver?_publish_eq (h : b.WellFormed) (hr : b.receiver? s = some r)
    (e : Event) :
    (b.publish e).receiver? s =
      some (if r.connected ∧ r.topic.covers e.jobId then r.withQueue (r.queue ++ [e]) else r) := by
  rw [receiver?_publish, hr, Option.map_some]
  have hid := id_of_receiver? hr
  unfold deliver
  by_cases hm : s ∈ b.audience e.jobId
  · rw [if_pos (List.contains_iff_mem.mpr (hid ▸ hm)), if_pos ((h.mem_audience_iff hr).mp hm)]
    rfl
  · rw [hid]
    rw [if_neg (mt List.contains_iff_mem.mp hm), if_neg (mt (h.mem_audience_iff hr).mpr hm)]

theorem receiver?_enter (t : Topic) {c : Bus} (hc : c.receivers = (b.addReceiver t).receivers)
    (hr : b.receiver? s = some r) : c.receiver? s = some r := by
  have := receiver?_addReceiver b t s
  rw [hr, Option.some_or] at this
  unfold receiver? at this ⊢
  rw [hc, this]

theorem WellFormed.receiver?_subscribe {b' : Bus} (h : b.WellFormed)
    (hb : b.subscribe k = .ok (s, b')) :
    b'.receiver? s = some ⟨s, .job k, [], true, true⟩ := by
  obtain ⟨rfl, rfl⟩ := eq_of_subscribe hb
  refine (receiver?_addReceiver b (.job k) b.nextId).trans ?_
  rw [h.receiver?_nextId, Option.none_or, if_pos rfl]

theorem WellFormed.receiver?_subscribeAll (h : b.WellFormed) :
    b.subscribeAll.2.receiver? b.nextId = some ⟨b.nextId, .wildcard, [], true, true⟩ := by
  refine (receiver?_addReceiver b .wildcard b.nextId).trans ?_
  rw [h.receiver?_nextId, Option.none_or, if_pos rfl]

theorem WellFormed.receiver?_act (h : b.WellFormed) (hr : b.receiver? s = some r)
    (hk : a.Keeps s) :
    ∃ q, b.taken s a ++ q = r.queue ++
        (if r.connected then a.events.filter (r.topic.covers ·.jobId) else []) ∧
      (b.act a).receiver? s =
        some { r with queue := q, connected := r.connected && !a.isShutDown } := by
  cases a with
  | publish e =>
    have hp := h.receiver?_publish_eq hr e
    by_cases hc : r.connected = true <;> by_cases ht : r.topic.covers e.jobId = true
    · rw [if_pos ⟨hc, ht⟩] at hp
      refine ⟨r.queue ++ [e], ?_, hp.trans ?_⟩
      · simp [taken, Act.events, hc, ht]
      · simp [Receiver.withQueue, Act.isShutDown]
    · rw [if_neg fun hn => ht hn.2] at hp
      refine ⟨r.queue, ?_, hp.trans ?_⟩
      · simp [taken, Act.events, ht]
      · simp [Act.isShutDown]
    all_goals
      rw [if_neg fun hn => hc hn.1] at hp
      refine ⟨r.queue, ?_, hp.trans ?_⟩
      · simp [taken, hc]
      · simp [Act.isShutDown]
  | subscribe job =>
    refine ⟨r.queue, by simp [taken, Act.events], ?_⟩
    simp only [Bus.act, Act.isShutDown, Bool.not_false, Bool.and_true]
    split
    next hb => exact receiver?_enter (.job job) ((eq_of_subscribe hb).2 ▸ rfl) hr
    next => exact hr
  | subscribeAll =>
    refine ⟨r.queue, by simp [taken, Act.events], ?_⟩
    simp only [Act.isShutDown, Bool.not_false, Bool.and_true]
    exact receiver?_enter .wildcard (c := b.subscribeAll.2) rfl hr
  | use u x =>
    simp only [Act.isShutDown, Bool.not_false, Bool.and_true]
    by_cases hu : u = s
    · subst hu
      obtain rfl : x = .receive := hk x rfl
      obtain ⟨q, hq, hr'⟩ := exists_queue_tryReceive hr
      exact ⟨q, by simpa [taken, Act.events] using hq, hr'⟩
    · refine ⟨r.queue, ?_, (receiver?_use_of_ne (Ne.symm hu) x).trans hr⟩
      cases x <;> simp [taken, Act.events, hu]
  | shutDown =>
    refine ⟨r.queue, by simp [taken, Act.events], ?_⟩
    refine (receiver?_shutDown b s).trans ?_
    simp [hr, Receiver.cutOff, Act.isShutDown]

/-! ## Many acts -/

theorem acts_append (b : Bus) (as as' : List Act) : b.acts (as ++ as') = (b.acts as).acts as' :=
  List.foldl_append

/-- A receiver gives out and holds exactly what is published on its topic while it is connected. -/
theorem WellFormed.delivery (h : b.WellFormed) (hr : b.receiver? s = some r)
    (hk : ∀ a ∈ as, a.Keeps s ∧ a.isShutDown = false) :
    ∃ q, takenBy s b as ++ q = r.queue ++
        (if r.connected then (as.flatMap Act.events).filter (r.topic.covers ·.jobId) else []) ∧
      (b.acts as).receiver? s = some (r.withQueue q) := by
  induction as generalizing b r with
  | nil => exact ⟨r.queue, by simp [takenBy], hr⟩
  | cons a as ih =>
    obtain ⟨ha, has⟩ := List.forall_mem_cons.mp hk
    obtain ⟨q, hq, hr'⟩ := h.receiver?_act hr ha.1
    rw [ha.2, Bool.not_false, Bool.and_true] at hr'
    obtain ⟨q', hq', hr''⟩ := ih (h.act a) hr' has
    refine ⟨q', ?_, hr''⟩
    simp only [takenBy, List.append_assoc, hq', List.flatMap_cons, List.filter_append]
    rw [← List.append_assoc, hq, List.append_assoc]
    by_cases hc : r.connected = true <;> simp [hc]

/-- The act does not use the handle. -/
def Act.Foreign (s : Nat) (a : Act) : Prop := ∀ u, a ≠ .use s u

theorem taken_of_foreign (h : a.Foreign s) : b.taken s a = [] := by
  cases a with
  | use s' u =>
    have hne : s' ≠ s := by
      rintro rfl
      exact h u rfl
    cases u <;> simp [taken, hne]
  | _ => rfl

theorem takenBy_of_foreign (h : ∀ a ∈ as, a.Foreign s) : takenBy s b as = [] := by
  induction as generalizing b with
  | nil => rfl
  | cons a as ih =>
    obtain ⟨ha, has⟩ := List.forall_mem_cons.mp h
    rw [takenBy, taken_of_foreign ha, ih has, List.nil_append]

theorem Act.Foreign.keeps (h : a.Foreign s) : a.Keeps s := fun u hu => absurd hu (h u)

/-- What others do only adds to a queue. -/
theorem WellFormed.receiver?_acts (h : b.WellFormed) (hr : b.receiver? s = some r)
    (hf : ∀ a ∈ as, a.Foreign s ∧ a.isShutDown = false) :
    (b.acts as).receiver? s = some (r.withQueue (r.queue ++
      if r.connected then (as.flatMap Act.events).filter (r.topic.covers ·.jobId) else [])) := by
  obtain ⟨q, hq, hr'⟩ := h.delivery hr fun a ha => ⟨(hf a ha).1.keeps, (hf a ha).2⟩
  rw [takenBy_of_foreign fun a ha => (hf a ha).1, List.nil_append] at hq
  rw [hr', hq]

end JobConsole.Bus
