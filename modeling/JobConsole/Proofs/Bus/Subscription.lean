import JobConsole.Proofs.Bus.Audience
import Mathlib.Data.List.Infix

/-! # The life of a subscription

A handle is given out, takes events until its holder leaves or the bus goes away, and hands on what
it took. What it has handed on, followed by what its queue holds, is exactly what was published on its
topic in between, so two handles that follow one job see its events in one order. Taking an event does
to the bus what waiting for one does (`use_receive`).
-/

namespace JobConsole.Bus

/-- The handle that an act gives out, and what it follows. -/
def granted? (b : Bus) : Act → Option (Nat × Topic)
  | .subscribe job =>
    match b.subscribe job with
    | .ok (s, _) => some (s, .job job)
    | .error _ => none
  | .subscribeAll => some (b.subscribeAll.1, .wildcard)
  | _ => none

/-- From this act on the handle is given nothing: its holder closes or discards it, or the bus goes
away. -/
def Act.ends (s : Nat) : Act → Bool
  | .use s' .close => s' = s
  | .use s' .discard => s' = s
  | .shutDown => true
  | _ => false

/-- The events on a topic that are published as long as a handle takes events. -/
def due (t : Topic) (s : Nat) (as : List Act) : List Event :=
  ((as.takeWhile (!·.ends s)).flatMap Act.events).filter (t.covers ·.jobId)

def about (k : String) (es : List Event) : List Event := es.filter (·.jobId = k)

def outcome : List Event → Bool → Received
  | e :: _, _ => .event e
  | [], true => .closed
  | [], false => .pending

variable {b : Bus} {s : Nat} {r : Receiver} {t : Topic} {a : Act} {as : List Act} {k : String}

/-! ## What is due -/

theorem events_of_ends (h : a.ends s = true) : a.events = [] := by
  cases a with
  | publish => cases h
  | _ => rfl

theorem due_cons (t : Topic) (s : Nat) (a : Act) (as : List Act) :
    due t s (a :: as) = a.events.filter (t.covers ·.jobId) ++
      if a.ends s then [] else due t s as := by
  unfold due
  cases h : a.ends s with
  | true => simp [h, events_of_ends h]
  | false => simp [h]

theorem about_isPrefix {es es' : List Event} (h : es <+: es') (k : String) :
    about k es <+: about k es' := h.filter _

theorem about_append (k : String) (es es' : List Event) :
    about k (es ++ es') = about k es ++ about k es' := List.filter_append ..

theorem about_filter_covers (h : t.covers k = true) (es : List Event) :
    about k (es.filter (t.covers ·.jobId)) = about k es := by
  unfold about
  rw [List.filter_filter]
  refine List.filter_congr fun e _ => ?_
  by_cases hk : e.jobId = k <;> simp [hk, h]

theorem about_due_isPrefix (h : t.covers k = true) (s : Nat) (as : List Act) :
    about k (due t s as) <+: about k (as.flatMap Act.events) := by
  unfold due
  rw [about_filter_covers h]
  exact about_isPrefix ((List.takeWhile_prefix _).flatMap _) k

/-- Once the events of an earlier stretch are passed over, the rest that is due comes from the later
one. -/
theorem drop_about_due_isPrefix (h : t.covers k = true) (s : Nat) (as as' : List Act) :
    (about k (due t s (as ++ as'))).drop (about k (as.flatMap Act.events)).length <+:
      about k (as'.flatMap Act.events) := by
  have hd := (about_due_isPrefix h s (as ++ as')).drop (about k (as.flatMap Act.events)).length
  rwa [List.flatMap_append, about_append, List.drop_left] at hd

/-! ## Holding a handle -/

theorem WellFormed.receiver?_act_of_held (h : b.WellFormed) (hr : b.receiver? s = some r)
    (hd : a ≠ .use s .discard) :
    ∃ q active, b.taken s a ++ q = r.queue ++
        (if r.connected then a.events.filter (r.topic.covers ·.jobId) else []) ∧
      (b.act a).receiver? s =
        some { r with queue := q, connected := r.connected && !a.ends s, active := active } := by
  by_cases hk : a.Keeps s
  · obtain ⟨q, hq, hr'⟩ := h.receiver?_act hr hk
    have hends : a.ends s = a.isShutDown := by
      cases a with
      | use s' u =>
        cases u with
        | close | discard =>
          refine decide_eq_false fun hs => ?_
          subst hs
          cases hk _ rfl
        | _ => rfl
      | _ => rfl
    exact ⟨q, r.active, hq, hends ▸ hr'⟩
  · simp only [Act.Keeps, not_forall] at hk
    obtain ⟨u, rfl, hu⟩ := hk
    cases u with
    | receive => exact absurd rfl hu
    | close =>
      refine ⟨r.queue, false, by simp [taken, Act.events], ?_⟩
      refine (receiver?_closeReceiver b s s).trans ?_
      rw [hr, Option.map_some, if_pos (id_of_receiver? hr)]
      simp [Receiver.closed, Act.ends]
    | remove =>
      refine ⟨r.queue, r.active, by simp [taken, Act.events], ?_⟩
      refine (receiver?_finishLeaving b s s).trans ?_
      simp [hr, Act.ends]
    | discard => exact absurd rfl hd

theorem WellFormed.delivery_of_held (h : b.WellFormed) (hr : b.receiver? s = some r)
    (hd : ∀ a ∈ as, a ≠ .use s .discard) :
    ∃ q active, takenBy s b as ++ q = r.queue ++ (if r.connected then due r.topic s as else []) ∧
      (b.acts as).receiver? s =
        some { r with
          queue := q, connected := r.connected && !as.any (·.ends s), active := active } := by
  induction as generalizing b r with
  | nil => exact ⟨r.queue, r.active, by simp [takenBy, due], by simpa [Bus.acts] using hr⟩
  | cons a as ih =>
    obtain ⟨ha, has⟩ := List.forall_mem_cons.mp hd
    obtain ⟨q, active, hq, hr'⟩ := h.receiver?_act_of_held hr ha
    obtain ⟨q', active', hq', hr''⟩ := ih (h.act a) hr' has
    refine ⟨q', active', ?_, ?_⟩
    · rw [takenBy, List.append_assoc, hq', ← List.append_assoc, hq, due_cons, List.append_assoc]
      cases r.connected <;> cases a.ends s <;> simp
    · refine hr''.trans ?_
      simp [List.any_cons, Bool.not_or, Bool.and_assoc]

theorem receive_eq (hr : b.receiver? s = some r) :
    (b.receive s).1 = outcome r.queue (!r.connected) := by
  cases hq : r.queue with
  | nil =>
    simp only [receive, tryReceive_nil hr hq, isConnected_of_receiver? hr]
    cases r.connected <;> rfl
  | cons e rest =>
    simp only [receive, tryReceive_cons hr hq]
    rfl

/-! ## Discarding a handle -/

theorem WellFormed.gone_discard (h : b.WellFormed) (hr : b.receiver? s = some r) :
    Gone s (b.act (.use s .discard)) := by
  cases ha : r.active with
  | true =>
    have hd : b.act (.use s .discard) = b.dropReceiver s :=
      congrArg (·.dropReceiver s) (finishLeaving_of_active hr ha)
    exact hd ▸ h.gone_dropReceiver hr ha
  | false =>
    have hl : b.finishLeaving s = b.removeSubscriber r.topic s := by
      simp only [Bus.finishLeaving, hr, ha, Bool.false_eq_true, ↓reduceIte]
    have hr' : (b.removeSubscriber r.topic s).receiver? s = some r :=
      (receiver?_removeSubscriber ..).trans hr
    have hu : (b.removeSubscriber r.topic s).unsubscribe s = b.removeSubscriber r.topic s := by
      simp only [Bus.unsubscribe, hr', ha, Bool.false_eq_true, ↓reduceIte]
    have hd : b.act (.use s .discard) = (b.removeSubscriber r.topic s).forget s :=
      (congrArg (·.dropReceiver s) hl).trans (congrArg (·.forget s) hu)
    rw [hd]
    refine ⟨?_, ?_, fun t hs => ?_⟩
    · have hlt := h.receiver_lt r (mem_of_receiver? hr)
      rw [id_of_receiver? hr] at hlt
      exact (nextId_removeSubscriber b r.topic s).symm ▸ hlt
    · rw [receiver?_forget, if_pos rfl]
    · rw [subscribers_forget, subscribers_removeSubscriber] at hs
      split at hs
      · simp at hs
      next hne => exact hne (h.topic_eq hs hr).symm

theorem taken_of_none (h : b.receiver? s = none) (a : Act) : b.taken s a = [] := by
  cases a with
  | use s' u =>
    by_cases hs : s' = s
    · subst hs
      cases u <;> simp [taken, tryReceive, h]
    · cases u <;> simp [taken, hs]
  | _ => rfl

theorem Gone.takenBy_eq (h : Gone s b) (as : List Act) : takenBy s b as = [] := by
  induction as generalizing b with
  | nil => rfl
  | cons a as ih => rw [takenBy, taken_of_none h.receiver?_eq, ih (h.act a), List.append_nil]

theorem takenBy_append (s : Nat) (b : Bus) (as as' : List Act) :
    takenBy s b (as ++ as') = takenBy s b as ++ takenBy s (b.acts as) as' := by
  induction as generalizing b with
  | nil => rfl
  | cons a as ih =>
    rw [List.cons_append, takenBy, takenBy, ih, List.append_assoc]
    rfl

theorem WellFormed.held_or_gone (h : b.WellFormed) (hr : b.receiver? s = some r) (as : List Act) :
    (∃ r', (b.acts as).receiver? s = some r') ∨ Gone s (b.acts as) := by
  induction as generalizing b r with
  | nil => exact .inl ⟨r, hr⟩
  | cons a as ih =>
    by_cases ha : a = .use s .discard
    · subst ha
      exact .inr ((h.gone_discard hr).acts as)
    · obtain ⟨q, active, -, hr'⟩ := h.receiver?_act_of_held hr ha
      exact ih (h.act a) hr'

/-- With its handle a receiver discards what its queue holds, and gives out no more. -/
theorem WellFormed.discarded (h : b.WellFormed) (hr : b.receiver? s = some r)
    (mid late : List Act) :
    takenBy s b (mid ++ .use s .discard :: late) = takenBy s b mid ∧
      (b.acts (mid ++ .use s .discard :: late)).queueOf s = [] := by
  have hg : Gone s ((b.acts mid).act (.use s .discard)) := by
    rcases h.held_or_gone hr mid with ⟨r', hr'⟩ | hg
    · exact (h.acts mid).gone_discard hr'
    · exact hg.act _
  constructor
  · rw [takenBy_append, takenBy, hg.takenBy_eq late]
    exact List.append_nil _
  · rw [acts_append]
    exact queueOf_eq_nil (hg.acts late).receiver?_eq

theorem WellFormed.takenBy_isPrefix (h : b.WellFormed) (hr : b.receiver? s = some r)
    (as : List Act) :
    takenBy s b as <+: r.queue ++ if r.connected then due r.topic s as else [] := by
  induction as generalizing b r with
  | nil => exact List.nil_prefix
  | cons a as ih =>
    by_cases ha : a = .use s .discard
    · subst ha
      have ht : takenBy s b (.use s .discard :: as) = [] := (h.discarded hr [] as).1
      exact ht ▸ List.nil_prefix
    · obtain ⟨q, active, hq, hr'⟩ := h.receiver?_act_of_held hr ha
      have hp := (List.prefix_append_right_inj (b.taken s a)).mpr (ih (h.act a) hr')
      rw [← List.append_assoc, hq, List.append_assoc] at hp
      refine hp.trans ?_
      rw [due_cons]
      cases r.connected <;> cases a.ends s <;> simp

/-! ## From the first to the last -/

theorem WellFormed.receiver?_granted (h : b.WellFormed) (hg : b.granted? a = some (s, t)) :
    (b.act a).receiver? s = some ⟨s, t, [], true, true⟩ := by
  cases a with
  | subscribe job =>
    simp only [granted?] at hg
    split at hg
    next s' b' hb =>
      cases hg
      rw [act_subscribe hb]
      exact h.receiver?_subscribe hb
    next => cases hg
  | subscribeAll =>
    cases hg
    exact h.receiver?_subscribeAll
  | _ => cases hg

theorem events_of_granted (hg : b.granted? a = some (s, t)) : a.events = [] := by
  cases a with
  | publish => cases hg
  | _ => rfl

/-- Among any number of handles and whatever their holders do, each is given the events on its topic
once and in order, from the act that gives it out to the act that ends it. What it has been given can be
received after that. From when two follow a job, each receives from the front of one list of events. A
publication tells how many queues the event has entered. -/
theorem each_event_once_in_order (limit : Nat) (before after : List Act) (a : Act) (s : Nat)
    (t : Topic) (hg : ((new limit).acts before).granted? a = some (s, t)) :
    let b := ((new limit).acts before).act a
    let b' := b.acts after
    ((∀ x ∈ after, x ≠ .use s .discard) →
      takenBy s b after ++ b'.queueOf s = due t s after ∧
      (b'.receive s).1 =
        outcome ((due t s after).drop (takenBy s b after).length) (after.any (·.ends s))) ∧
    (∀ mid late, after = mid ++ .use s .discard :: late →
      takenBy s b after = takenBy s b mid ∧ b'.queueOf s = []) ∧
    (∀ mid a' late s' t' k, after = mid ++ a' :: late →
      (b.acts mid).granted? a' = some (s', t') → t.covers k = true → t'.covers k = true →
      (about k (takenBy s b after)).drop (about k (mid.flatMap Act.events)).length <+:
          about k (late.flatMap Act.events) ∧
        about k (takenBy s' ((b.acts mid).act a') late) <+: about k (late.flatMap Act.events)) ∧
    ∀ e, ∃ reached : List Nat, reached.Nodup ∧ reached.length = b'.deliveredCount e ∧
      ∀ u, (b'.publish e).queueOf u = if u ∈ reached then b'.queueOf u ++ [e] else b'.queueOf u := by
  intro b b'
  have h₀ : ((new limit).acts before).WellFormed := (wellFormed_new limit).acts before
  have h : b.WellFormed := h₀.act a
  have hr : b.receiver? s = some ⟨s, t, [], true, true⟩ := h₀.receiver?_granted hg
  refine ⟨fun hd => ?_, fun mid late ha => ?_, ?_, fun e => ?_⟩
  · obtain ⟨q, active, hq, hr'⟩ := h.delivery_of_held hr hd
    have hq : takenBy s b after ++ q = due t s after := hq
    constructor
    · rw [queueOf_eq hr', hq]
    · rw [receive_eq hr', ← hq, List.drop_left]
      simp
  · subst ha
    exact h.discarded hr mid late
  · rintro mid a' late s' t' k rfl hg' hk hk'
    have h' := h.acts mid
    have hp := (about_isPrefix (h.takenBy_isPrefix hr (mid ++ a' :: late)) k).drop
      (about k (mid.flatMap Act.events)).length
    have hp' := about_isPrefix ((h'.act a').takenBy_isPrefix (h'.receiver?_granted hg') late) k
    have hlate : (a' :: late).flatMap Act.events = late.flatMap Act.events := by
      rw [List.flatMap_cons, events_of_granted hg', List.nil_append]
    constructor
    · exact hlate ▸ hp.trans (drop_about_due_isPrefix hk s mid (a' :: late))
    · exact hp'.trans (about_due_isPrefix hk' s' late)
  · have h' := h.acts after
    have hd : b'.Distinct := by
      have := distinct_acts limit (before ++ a :: after)
      rwa [acts_append] at this
    exact ⟨b'.audience e.jobId, h'.nodup_audience hd e.jobId, rfl, h'.queueOf_publish e⟩

/-- A reader who left before it had read everything is given the rest, also when the bus is gone, and
agrees with one who came later. -/
theorem each_event_once_in_order_of_slow_reader :
    let e (job stage : String) : Event := ⟨job, default, .stage stage none⟩
    let before : List Act := [.subscribeAll, .publish (e "a" "zero")]
    let mid : List Act := [.publish (e "a" "one"), .use 0 .close, .publish (e "b" "two")]
    let late : List Act :=
      [.publish (e "a" "three"), .publish (e "a" "four"), .use 1 .close, .publish (e "a" "five"),
        .use 1 .remove, .use 2 .receive, .shutDown, .use 1 .receive, .use 1 .receive]
    let b := ((new 1).acts before).act (.subscribe "a")
    let b' := b.acts (mid ++ .subscribeAll :: late)
    ((new 1).acts before).granted? (.subscribe "a") = some (1, .job "a") ∧
      takenBy 1 b (mid ++ .subscribeAll :: late) ++ b'.queueOf 1 =
        [e "a" "one", e "a" "three", e "a" "four"] ∧
      (b'.receive 1).1 = .event (e "a" "four") ∧
      (about "a" (takenBy 1 b (mid ++ .subscribeAll :: late))).drop 1 <+:
        about "a" (late.flatMap Act.events) ∧
      about "a" (takenBy 2 ((b.acts mid).act .subscribeAll) late) <+:
        about "a" (late.flatMap Act.events) := by
  intro e before mid late b b'
  have hg : ((new 1).acts before).granted? (.subscribe "a") = some (1, .job "a") := rfl
  have hg' : (b.acts mid).granted? .subscribeAll = some (2, .wildcard) := rfl
  have hd : ∀ x ∈ mid ++ .subscribeAll :: late, x ≠ .use 1 .discard := by
    simp [mid, late]
  obtain ⟨h, -, horder, -⟩ := each_event_once_in_order 1 before _ _ 1 _ hg
  obtain ⟨hdue, hnext⟩ := h hd
  obtain ⟨hfirst, hsecond⟩ := horder mid _ late 2 _ "a" rfl hg' rfl rfl
  have htaken : (takenBy 1 b (mid ++ .subscribeAll :: late)).length = 2 := by decide +kernel
  have hall : due (.job "a") 1 (mid ++ .subscribeAll :: late) =
      [e "a" "one", e "a" "three", e "a" "four"] := rfl
  rw [htaken, hall] at hnext
  exact ⟨hg, hdue.trans hall, hnext, hfirst, hsecond⟩

end JobConsole.Bus
