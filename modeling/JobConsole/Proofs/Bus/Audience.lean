import JobConsole.Proofs.Bus.Leaving

/-! # Who a publication reaches

Nobody stands in the table twice under one topic, and nobody who is connected stands there under two.
So the audience of an event lists every queue that the event enters once, and its length is the
number of those queues.
-/

namespace JobConsole.Bus

/-- Nobody stands in the table twice under one topic. -/
def Distinct (b : Bus) : Prop := ∀ t, (b.subscribers t).Nodup

variable {b b' : Bus} {s : Nat} {r : Receiver} {t : Topic} {k : String}

/-! ## One entry each -/

theorem Distinct.congr (h : b.Distinct) (hs : ∀ t, b'.subscribers t = b.subscribers t) :
    b'.Distinct := fun t => hs t ▸ h t

theorem Distinct.removeSubscriber (h : b.Distinct) (t : Topic) (s : Nat) :
    (b.removeSubscriber t s).Distinct := by
  intro u
  rw [subscribers_removeSubscriber]
  split
  · exact (h t).filter _
  · exact h u

theorem Distinct.publish (h : b.Distinct) (e : Event) : (b.publish e).Distinct := by
  intro t
  rw [subscribers_publish]
  split
  · exact (h t).filter _
  · exact h t

theorem Distinct.enter (h : b.Distinct) (hw : b.WellFormed)
    (hs : ∀ u, b'.subscribers u = if u = t then b.subscribers t ++ [b.nextId] else b.subscribers u) :
    b'.Distinct := by
  intro u
  rw [hs]
  split
  · refine List.nodup_append.mpr ⟨h t, List.nodup_singleton _, ?_⟩
    intro i hi j hj
    obtain rfl := List.mem_singleton.mp hj
    exact Nat.ne_of_lt (hw.subscriber_lt t i hi)
  · exact h u

/-- What every use of a handle keeps: it is made of a few changes of the bus. -/
theorem use_induction {P : Bus → Prop}
    (update : ∀ {b : Bus} {f : Receiver → Receiver} (u : Nat), Mild f → P b →
      P (b.updateReceiver u f))
    (remove : ∀ {b : Bus} (t : Topic) (u : Nat), P b → P (b.removeSubscriber t u))
    (forget : ∀ {b : Bus} (u : Nat), P b → P (b.forget u)) (h : P b) (s : Nat) (x : Use) :
    P (b.use s x) := by
  have leave {b : Bus} (h : P b) : P (b.finishLeaving s) := by
    unfold finishLeaving
    split
    · split
      · exact h
      · exact remove _ s h
    · exact h
  cases x with
  | receive =>
    simp only [use, tryReceive]
    split
    · split
      next rest _ => exact update s (mild_withQueue rest) h
      next => exact h
    · exact h
  | close => exact update s mild_closed h
  | remove => exact leave h
  | discard =>
    refine forget s ?_
    unfold unsubscribe
    split
    · split
      · exact remove _ s (update s mild_closed (leave h))
      · exact leave h
    · exact leave h

theorem Distinct.act (h : b.Distinct) (hw : b.WellFormed) (a : Act) : (b.act a).Distinct := by
  cases a with
  | publish e => exact h.publish e
  | subscribe job =>
    simp only [Bus.act]
    split
    next hb =>
      obtain ⟨rfl, rfl⟩ := eq_of_subscribe hb
      exact h.enter hw (subscribers_setSubscribers _ job _)
    next => exact h
  | subscribeAll => exact h.enter (t := .wildcard) hw fun u => by cases u <;> rfl
  | use s x =>
    refine use_induction (fun u _ h => h.congr ?_) (fun t u h => h.removeSubscriber t u)
      (fun u h => h.congr (subscribers_forget _ u)) h s x
    exact subscribers_congr rfl rfl
  | shutDown =>
    intro t
    cases t <;> exact List.nodup_nil

theorem distinct_new (limit : Nat) : (new limit).Distinct := by
  intro t
  cases t <;> exact List.nodup_nil

theorem distinct_acts (limit : Nat) (as : List Act) : ((new limit).acts as).Distinct := by
  suffices h : ∀ b : Bus, b.WellFormed → b.Distinct → (b.acts as).Distinct from
    h _ (wellFormed_new limit) (distinct_new limit)
  induction as with
  | nil => exact fun _ _ h => h
  | cons a as ih => exact fun b hw h => ih (b.act a) (hw.act a) (h.act hw a)

/-! ## The audience -/

theorem receiver?_of_isConnected (h : b.isConnected s = true) :
    ∃ r, b.receiver? s = some r ∧ r.connected = true := by
  unfold isConnected at h
  split at h
  next r hr => exact ⟨r, hr, h⟩
  next => cases h

theorem receiver?_of_mem_audience (h : s ∈ b.audience k) :
    ∃ r, b.receiver? s = some r ∧ r.connected = true := by
  rcases List.mem_append.mp h with h | h <;>
    exact receiver?_of_isConnected (List.mem_filter.mp h).2

theorem WellFormed.nodup_audience (hw : b.WellFormed) (h : b.Distinct) (k : String) :
    (b.audience k).Nodup := by
  refine List.nodup_append.mpr ⟨(h (.job k)).filter _, (h .wildcard).filter _, ?_⟩
  rintro s hs _ hs' rfl
  obtain ⟨hs, hc⟩ := List.mem_filter.mp hs
  obtain ⟨r, hr, -⟩ := receiver?_of_isConnected hc
  have hjob : r.topic = .job k := hw.topic_eq (t := .job k) hs hr
  have hall : r.topic = .wildcard := hw.topic_eq (List.mem_filter.mp hs').1 hr
  cases hjob.symm.trans hall

theorem queueOf_eq_nil (h : b.receiver? s = none) : b.queueOf s = [] := by
  simp only [queueOf, h]

/-- An event enters the queue of everybody in its audience, and no other queue. -/
theorem WellFormed.queueOf_publish (hw : b.WellFormed) (e : Event) (s : Nat) :
    (b.publish e).queueOf s =
      if s ∈ b.audience e.jobId then b.queueOf s ++ [e] else b.queueOf s := by
  cases hr : b.receiver? s with
  | none =>
    have hn : s ∉ b.audience e.jobId := by
      intro hs
      obtain ⟨r, hr', -⟩ := receiver?_of_mem_audience hs
      cases hr.symm.trans hr'
    have hp : (b.publish e).receiver? s = none := by rw [receiver?_publish, hr, Option.map_none]
    rw [if_neg hn, queueOf_eq_nil hr, queueOf_eq_nil hp]
  | some r =>
    rw [queueOf_eq (hw.receiver?_publish_eq hr e), queueOf_eq hr]
    by_cases hs : s ∈ b.audience e.jobId
    · rw [if_pos hs, if_pos ((hw.mem_audience_iff hr).mp hs)]
      rfl
    · rw [if_neg hs, if_neg (mt (hw.mem_audience_iff hr).mpr hs)]

end JobConsole.Bus
