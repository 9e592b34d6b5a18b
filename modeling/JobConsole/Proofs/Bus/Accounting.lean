import JobConsole.Proofs.Bus.Subscription
import JobConsole.Proofs.Dict

/-! # Accounting for subscribers

Everybody who stands in the table has a handle, and that is in use unless its holder is half-way out.
So once nobody is half-way out, the length of each list in the table is the number of handles in use
on that topic. No job has an empty list, and none has more subscribers than the limit allows.
-/

namespace JobConsole.Bus

/-- The handles whose holders are half-way out after an act: they have taken the first step of
unsubscribing, and have not taken the second. -/
def departing (b : Bus) (l : List Nat) : Act → List Nat
  | .use s .close =>
    match b.receiver? s with
    | some r => if r.active then s :: l else l
    | none => l
  | .use s .remove | .use s .discard => l.filter (· ≠ s)
  | _ => l

def table (b : Bus) : List Nat := b.byJob.flatMap (·.2) ++ b.wildcard

def inUse (b : Bus) (t : Topic) : Nat := b.receivers.countP fun r => r.active && r.topic = t

/-- The act is about the job: it publishes or subscribes there, or uses a handle on it. -/
def Act.Concerns (b : Bus) (id : String) : Act → Prop
  | .publish e => e.jobId = id
  | .subscribe job => job = id
  | .subscribeAll => False
  | .use s _ => ∃ r, b.receiver? s = some r ∧ r.topic = .job id
  | .shutDown => True

variable {b b' : Bus} {l l' : List Nat} {s : Nat} {r : Receiver} {t : Topic} {a : Act} {id : String}

/-! ## The lists of the table -/

/-- No job has two lists, an empty one, or more subscribers than the limit allows. -/
structure Tidy (b : Bus) : Prop where
  keys : b.byJob.Pairwise fun e f => e.1 ≠ f.1
  occupied : ∀ e ∈ b.byJob, e.2 ≠ []
  limited : 0 < b.limit → ∀ id, b.subscriberCount id ≤ b.limit

theorem Tidy.congr (h : b.Tidy) (hj : b'.byJob = b.byJob) (hl : b'.limit = b.limit) : b'.Tidy := by
  constructor
  · exact hj ▸ h.keys
  · exact hj ▸ h.occupied
  · simpa only [subscriberCount, subscribersOf, hj, hl] using h.limited

theorem Tidy.setSubscribers (h : b.Tidy) (job : String) {ids : List Nat}
    (hl : 0 < b.limit → ids.length ≤ b.limit) : (b.setSubscribers job ids).Tidy := by
  have hothers := h.keys.filter fun e => e.1 ≠ job
  constructor
  · simp only [Bus.setSubscribers]
    split
    · exact hothers
    · refine List.pairwise_cons.mpr ⟨fun e he => ?_, hothers⟩
      exact (of_decide_eq_true (List.mem_filter.mp he).2).symm
  · intro e he
    simp only [Bus.setSubscribers] at he
    split at he
    next => exact h.occupied e (List.mem_of_mem_filter he)
    next hn =>
      rcases List.mem_cons.mp he with rfl | he
      · simpa using hn
      · exact h.occupied e (List.mem_of_mem_filter he)
  · intro hpos id
    simp only [subscriberCount, subscribersOf_setSubscribers]
    split
    · exact hl hpos
    · exact h.limited hpos id

theorem Tidy.removeSubscriber (h : b.Tidy) (t : Topic) (s : Nat) : (b.removeSubscriber t s).Tidy := by
  cases t with
  | wildcard => exact h.congr rfl rfl
  | job k =>
    refine h.setSubscribers k fun hpos => ?_
    exact (List.length_filter_le ..).trans (h.limited hpos k)

theorem Tidy.publish (h : b.Tidy) (e : Event) : (b.publish e).Tidy := by
  have hp : (b.setSubscribers e.jobId ((b.subscribersOf e.jobId).filter b.isConnected)).Tidy := by
    refine h.setSubscribers e.jobId fun hpos => ?_
    exact (List.length_filter_le ..).trans (h.limited hpos e.jobId)
  exact hp.congr rfl rfl

theorem subscribe_of_full (hpos : 0 < b.limit) (hle : b.limit ≤ b.subscriberCount id) :
    b.subscribe id = .error (.tooManySubscribers id (b.subscriberCount id)) :=
  if_pos ⟨hpos, hle⟩

theorem Tidy.subscribe (h : b.Tidy) (hb : b.subscribe id = .ok (s, b')) : b'.Tidy := by
  have hroom (hpos : 0 < b.limit) : b.subscriberCount id < b.limit := by
    by_contra hle
    cases (subscribe_of_full hpos (Nat.not_lt.mp hle)).symm.trans hb
  obtain ⟨-, rfl⟩ := eq_of_subscribe hb
  have ha : (b.addReceiver (.job id)).Tidy := h.congr rfl rfl
  refine ha.setSubscribers id fun hpos => ?_
  rw [List.length_append]
  exact hroom hpos

theorem Tidy.act (h : b.Tidy) (a : Act) : (b.act a).Tidy := by
  cases a with
  | publish e => exact h.publish e
  | subscribe job =>
    simp only [Bus.act]
    split
    next hb => exact h.subscribe hb
    next => exact h
  | subscribeAll => exact h.congr rfl rfl
  | use s x =>
    exact use_induction (fun _ _ h => h.congr rfl rfl) (fun t u h => h.removeSubscriber t u)
      (fun _ h => h.congr rfl rfl) h s x
  | shutDown =>
    refine ⟨.nil, fun e he => ?_, fun _ _ => Nat.zero_le _⟩
    cases he

theorem tidy_new (limit : Nat) : (new limit).Tidy := by
  refine ⟨.nil, fun e he => ?_, fun _ _ => Nat.zero_le _⟩
  cases he

theorem limit_act (b : Bus) (a : Act) : (b.act a).limit = b.limit := by
  cases a with
  | subscribe job =>
    simp only [act]
    split
    next hb => exact (eq_of_subscribe hb).2 ▸ rfl
    next => rfl
  | use s x =>
    have hremove (c : Bus) (t : Topic) (u : Nat) : (c.removeSubscriber t u).limit = c.limit := by
      cases t <;> rfl
    exact use_induction (P := fun c => c.limit = b.limit) (fun _ _ h => h)
      (fun t u h => (hremove _ t u).trans h) (fun _ h => h) rfl s x
  | _ => rfl

theorem Tidy.refused_iff (h : b.Tidy) (id : String) :
    (∃ e, b.subscribe id = .error e) ↔ 0 < b.limit ∧ b.subscriberCount id = b.limit := by
  constructor
  · rintro ⟨e, he⟩
    obtain ⟨-, hpos, hle⟩ := eq_of_subscribe_error he
    exact ⟨hpos, Nat.le_antisymm (h.limited hpos id) hle⟩
  · rintro ⟨hpos, heq⟩
    exact ⟨_, subscribe_of_full hpos (Nat.le_of_eq heq.symm)⟩

/-! ## Handles and entries -/

/-- Whoever stands in the table has a handle, and that is in use or its holder is one of those who are
half-way out; whoever has a handle in use is connected. -/
structure Accounted (l : List Nat) (b : Bus) : Prop where
  wellFormed : b.WellFormed
  distinct : b.Distinct
  tidy : b.Tidy
  ids : (b.receivers.map (·.id)).Nodup
  connected : ∀ {s r}, b.receiver? s = some r → r.active = true → r.connected = true
  held : ∀ {t s}, s ∈ b.subscribers t → ∃ r, b.receiver? s = some r ∧ (r.active = true ∨ s ∈ l)

theorem accounted_new (limit : Nat) : Accounted [] (new limit) := by
  refine ⟨wellFormed_new limit, distinct_new limit, tidy_new limit, List.nodup_nil, ?_, ?_⟩
  · intro s r hr
    cases hr
  · intro t s hs
    cases t <;> cases hs

theorem Accounted.mono (h : Accounted l b) (hl : l ⊆ l') : Accounted l' b := by
  refine { h with held := fun hs => ?_ }
  obtain ⟨r, hr, ha⟩ := h.held hs
  exact ⟨r, hr, ha.imp_right (hl ·)⟩

theorem Accounted.mem_of_active (h : Accounted l b) (hr : b.receiver? s = some r)
    (ha : r.active = true) : s ∈ b.subscribers r.topic :=
  h.wellFormed.enrolled hr (h.connected hr ha)

theorem Accounted.length_eq (h : Accounted [] b) (t : Topic) :
    (b.subscribers t).length = b.inUse t := by
  let users := b.receivers.filter fun r => r.active && r.topic = t
  have husers : (users.map (·.id)).Nodup := h.ids.sublist (List.filter_sublist.map _)
  have hmem (s : Nat) : s ∈ b.subscribers t ↔ s ∈ users.map (·.id) := by
    simp only [users, List.mem_map, List.mem_filter, Bool.and_eq_true, decide_eq_true_eq]
    constructor
    · intro hs
      obtain ⟨r, hr, ha | hn⟩ := h.held hs
      · exact ⟨r, ⟨mem_of_receiver? hr, ha, h.wellFormed.topic_eq hs hr⟩, id_of_receiver? hr⟩
      · cases hn
    · rintro ⟨r, ⟨hr, ha, rfl⟩, rfl⟩
      exact h.mem_of_active (Keyed.find?_of_mem h.ids hr) ha
  have hperm := (List.perm_ext_iff_of_nodup (h.distinct t) husers).mpr hmem
  rw [hperm.length_eq, List.length_map, ← List.countP_eq_length_filter]
  rfl

theorem Tidy.subscribers_eq {ids : List Nat} (h : b.Tidy) (he : (id, ids) ∈ b.byJob) :
    b.subscribers (.job id) = ids := by
  rw [subscribers, subscribersOf, (Dict.lookup_eq_some_iff_mem h.keys).mpr he, Option.getD_some]

theorem Tidy.exists_of_mem_table (h : b.Tidy) (hs : s ∈ b.table) : ∃ t, s ∈ b.subscribers t := by
  rcases List.mem_append.mp hs with hs | hs
  · obtain ⟨⟨k, ids⟩, he, hs⟩ := List.mem_flatMap.mp hs
    exact ⟨.job k, (h.subscribers_eq he).symm ▸ hs⟩
  · exact ⟨.wildcard, hs⟩

theorem Accounted.lt_of_mem_table (h : Accounted l b) (hs : s ∈ b.table) : s < b.nextId := by
  obtain ⟨t, hs⟩ := h.tidy.exists_of_mem_table hs
  exact h.wellFormed.subscriber_lt t s hs

theorem Accounted.topic_unique {u : Topic} (h : Accounted l b) (ht : s ∈ b.subscribers t)
    (hu : s ∈ b.subscribers u) : t = u := by
  obtain ⟨r, hr, -⟩ := h.held ht
  exact (h.wellFormed.topic_eq ht hr).symm.trans (h.wellFormed.topic_eq hu hr)

theorem Accounted.nodup_table (h : Accounted l b) : b.table.Nodup := by
  have hjobs : (b.byJob.flatMap (·.2)).Nodup := by
    refine List.nodup_flatMap.mpr ⟨?_, h.tidy.keys.imp_of_mem ?_⟩
    · rintro ⟨k, ids⟩ he
      exact h.tidy.subscribers_eq he ▸ h.distinct (.job k)
    · rintro ⟨k, ids⟩ ⟨k', ids'⟩ he he' hne s hs hs'
      have hs : s ∈ b.subscribers (.job k) := (h.tidy.subscribers_eq he).symm ▸ hs
      have hs' : s ∈ b.subscribers (.job k') := (h.tidy.subscribers_eq he').symm ▸ hs'
      exact hne (Topic.job.inj (h.topic_unique hs hs'))
  refine List.nodup_append.mpr ⟨hjobs, h.distinct .wildcard, ?_⟩
  rintro s hs _ hs' rfl
  obtain ⟨⟨k, ids⟩, he, hs⟩ := List.mem_flatMap.mp hs
  have hs : s ∈ b.subscribers (.job k) := (h.tidy.subscribers_eq he).symm ▸ hs
  cases h.topic_unique (u := .wildcard) hs hs'

/-! ## One act -/

theorem ids_use (h : (b.receivers.map (·.id)).Nodup) (s : Nat) (x : Use) :
    ((b.use s x).receivers.map (·.id)).Nodup := by
  refine use_induction (P := fun c => (c.receivers.map (·.id)).Nodup) (fun {c f} u hf h => ?_)
    (fun t u h => ?_) (fun u h => ?_) h s x
  · have hmap : (c.updateReceiver u f).receivers.map (·.id) = c.receivers.map (·.id) :=
      Keyed.map_key_map (hf.at u).id_eq c.receivers
    exact hmap ▸ h
  · rwa [receivers_removeSubscriber]
  · exact h.sublist (List.filter_sublist.map _)

theorem mem_departing_use {u : Nat} (hu : u ≠ s) (h : u ∈ l) (x : Use) :
    u ∈ b.departing l (.use s x) := by
  cases x with
  | receive => exact h
  | close =>
    simp only [departing]
    split
    · split
      · exact List.mem_cons_of_mem _ h
      · exact h
    · exact h
  | remove | discard => exact List.mem_filter.mpr ⟨h, by simpa using hu⟩

theorem mem_departing_close (hr : b.receiver? s = some r) (hs : r.active = true ∨ s ∈ l) :
    s ∈ b.departing l (.use s .close) := by
  simp only [departing, hr]
  split
  · exact List.mem_cons_self
  next hn => exact hs.resolve_left hn

theorem WellFormed.notMem_finishLeaving (h : b.WellFormed) (hr : b.receiver? s = some r)
    (ha : r.active ≠ true) (t : Topic) : s ∉ (b.finishLeaving s).subscribers t := by
  simp only [Bus.finishLeaving, hr]
  rw [if_neg ha, subscribers_removeSubscriber]
  split
  · simp
  next hne => exact fun hs => hne (h.topic_eq hs hr).symm

def Stands (l : List Nat) (s : Nat) (b : Bus) : Prop :=
  (∀ r, b.receiver? s = some r → r.active = true → r.connected = true) ∧
    ∀ t, s ∈ b.subscribers t → ∃ r, b.receiver? s = some r ∧ (r.active = true ∨ s ∈ l)

theorem stands_of_gone (h : Gone s b) : Stands l s b := by
  refine ⟨fun r hr => ?_, fun t hs => absurd hs (h.notMem t)⟩
  rw [h.receiver?_eq] at hr
  cases hr

theorem Accounted.stands_use (h : Accounted l b) (hr : b.receiver? s = some r) (x : Use) :
    Stands (b.departing l (.use s x)) s (b.use s x) := by
  have hold {t : Topic} (hs : s ∈ (b.use s x).subscribers t) : r.active = true ∨ s ∈ l := by
    obtain ⟨r', hr', ha⟩ := h.held ((within_use b s x).subset t hs)
    exact Option.some.inj (hr.symm.trans hr') ▸ ha
  cases x with
  | receive =>
    obtain ⟨q, -, hr'⟩ := exists_queue_tryReceive hr
    refine ⟨fun r' hq ha => ?_, fun t hs => ⟨_, hr', hold hs⟩⟩
    obtain rfl := Option.some.inj (hr'.symm.trans hq)
    exact h.connected (r := r) hr ha
  | close =>
    have hr' : (b.closeReceiver s).receiver? s = some r.closed := by
      rw [receiver?_closeReceiver, hr, Option.map_some, if_pos (id_of_receiver? hr)]
    refine ⟨fun r' hq ha => ?_, fun t hs => ⟨_, hr', .inr (mem_departing_close hr (hold hs))⟩⟩
    obtain rfl := Option.some.inj (hr'.symm.trans hq)
    cases ha
  | remove =>
    have hr' : (b.finishLeaving s).receiver? s = some r := (receiver?_finishLeaving ..).trans hr
    refine ⟨fun r' hq ha => h.connected ((receiver?_finishLeaving ..).symm.trans hq) ha, ?_⟩
    intro t hs
    by_cases ha : r.active = true
    · exact ⟨r, hr', .inl ha⟩
    · exact absurd hs (h.wellFormed.notMem_finishLeaving hr ha t)
  | discard => exact stands_of_gone (h.wellFormed.gone_discard hr)

/-- A use of a handle moves the accounts of that handle alone. -/
theorem Accounted.use (h : Accounted l b) (s : Nat) (x : Use) :
    Accounted (b.departing l (.use s x)) (b.use s x) := by
  have hstands (u : Nat) : Stands (b.departing l (.use s x)) u (b.use s x) := by
    by_cases hu : u = s
    · subst hu
      cases hr : b.receiver? u with
      | some r => exact h.stands_use hr x
      | none =>
        have hw := within_use b u x
        refine ⟨fun r hr' => ?_, fun t hs => ?_⟩
        · rw [hw.none_of_none u hr] at hr'
          cases hr'
        · obtain ⟨r, hr', -⟩ := h.held (hw.subset t hs)
          cases hr.symm.trans hr'
    · have hsame := receiver?_use_of_ne (b := b) hu x
      refine ⟨fun r hr => h.connected (hsame.symm.trans hr), fun t hs => ?_⟩
      obtain ⟨r, hr, ha⟩ := h.held ((within_use b s x).subset t hs)
      exact ⟨r, hsame.trans hr, ha.imp_right (mem_departing_use hu · x)⟩
  exact ⟨h.wellFormed.use s x, h.distinct.act h.wellFormed (.use s x), h.tidy.act (.use s x),
    ids_use h.ids s x, fun {u r} hr => (hstands u).1 r hr, fun {t u} hs => (hstands u).2 t hs⟩

theorem Accounted.publish (h : Accounted l b) (e : Event) : Accounted l (b.publish e) := by
  have hmild := mild_deliver e (b.audience e.jobId)
  have hsame (r : Receiver) : (deliver e (b.audience e.jobId) r).active = r.active ∧
      (deliver e (b.audience e.jobId) r).connected = r.connected := by
    unfold deliver
    split <;> exact ⟨rfl, rfl⟩
  refine ⟨h.wellFormed.publish e, h.distinct.publish e, h.tidy.publish e, ?_, ?_, ?_⟩
  · have hmap : (b.publish e).receivers.map (·.id) = b.receivers.map (·.id) :=
      Keyed.map_key_map hmild.id_eq b.receivers
    exact hmap ▸ h.ids
  · intro s r hr ha
    rw [receiver?_publish] at hr
    obtain ⟨q, hq, rfl⟩ := Option.map_eq_some_iff.mp hr
    rw [(hsame q).2]
    exact h.connected hq ((hsame q).1.symm.trans ha)
  · intro t s hs
    obtain ⟨r, hr, ha⟩ := h.held ((within_publish b e).subset t hs)
    refine ⟨_, (receiver?_publish ..).trans (congrArg _ hr), ?_⟩
    rwa [(hsame r).1]

theorem Accounted.enter (h : Accounted l b) (hw : b'.WellFormed) (hd : b'.Distinct) (ht : b'.Tidy)
    (hr : b'.receivers = (b.addReceiver t).receivers)
    (hs : ∀ u, b'.subscribers u = if u = t then b.subscribers t ++ [b.nextId] else b.subscribers u) :
    Accounted l b' := by
  have hfind (s : Nat) : b'.receiver? s =
      (b.receiver? s).or (if b.nextId = s then some ⟨b.nextId, t, [], true, true⟩ else none) := by
    rw [← receiver?_addReceiver]
    unfold receiver?
    rw [hr]
  have hnew : b'.receiver? b.nextId = some ⟨b.nextId, t, [], true, true⟩ := by
    rw [hfind, h.wellFormed.receiver?_nextId, Option.none_or, if_pos rfl]
  refine ⟨hw, hd, ht, ?_, ?_, ?_⟩
  · rw [hr, addReceiver, List.map_append]
    refine List.nodup_append.mpr ⟨h.ids, List.nodup_singleton _, ?_⟩
    rintro i hi j hj
    obtain ⟨r, hm, rfl⟩ := List.mem_map.mp hi
    obtain rfl := List.mem_singleton.mp hj
    exact Nat.ne_of_lt (h.wellFormed.receiver_lt r hm)
  · intro s r hr' ha
    rw [hfind] at hr'
    rcases Option.or_eq_some_iff.mp hr' with hq | ⟨-, hq⟩
    · exact h.connected hq ha
    · split at hq
      · exact Option.some.inj hq ▸ rfl
      · cases hq
  · intro u s hm
    rw [hs] at hm
    have hold (hm : s ∈ b.subscribers u) : ∃ r, b'.receiver? s = some r ∧ (r.active = true ∨ s ∈ l) := by
      obtain ⟨r, hq, ha⟩ := h.held hm
      exact ⟨r, by rw [hfind, hq, Option.some_or], ha⟩
    split at hm
    next hu =>
      subst hu
      rcases List.mem_append.mp hm with hm | hm
      · exact hold hm
      · obtain rfl := List.mem_singleton.mp hm
        exact ⟨_, hnew, .inl rfl⟩
    next => exact hold hm

theorem Accounted.act (h : Accounted l b) (ha : a.isShutDown = false) :
    Accounted (b.departing l a) (b.act a) := by
  have hw := h.wellFormed.act a
  have hd := h.distinct.act h.wellFormed a
  have ht := h.tidy.act a
  cases a with
  | publish e => exact h.publish e
  | subscribe job =>
    cases hb : b.subscribe job with
    | error e =>
      have hsame : b.act (.subscribe job) = b := by simp only [Bus.act, hb]
      exact hsame.symm ▸ h
    | ok x =>
      obtain ⟨s, b'⟩ := x
      rw [act_subscribe hb] at hw hd ht ⊢
      obtain ⟨-, rfl⟩ := eq_of_subscribe hb
      exact h.enter hw hd ht rfl (subscribers_setSubscribers _ job _)
  | subscribeAll => exact h.enter (t := .wildcard) hw hd ht rfl fun u => by cases u <;> rfl
  | use s x => exact h.use s x
  | shutDown => cases ha

/-! ## Other jobs -/

theorem subscribersOf_finishLeaving (h : ∀ r, b.receiver? s = some r → r.topic ≠ .job id) :
    (b.finishLeaving s).subscribersOf id = b.subscribersOf id := by
  unfold finishLeaving
  split
  next r hr =>
    split
    · rfl
    · have := subscribers_removeSubscriber b r.topic (.job id) s
      rwa [if_neg (h r hr).symm] at this
  next => rfl

theorem subscribersOf_unsubscribe (h : ∀ r, b.receiver? s = some r → r.topic ≠ .job id) :
    (b.unsubscribe s).subscribersOf id = b.subscribersOf id := by
  unfold unsubscribe
  split
  next r hr =>
    split
    · have := subscribers_removeSubscriber (b.closeReceiver s) r.topic (.job id) s
      rwa [if_neg (h r hr).symm] at this
    · rfl
  next => rfl

/-- What does not concern a job leaves its subscribers alone. -/
theorem subscribersOf_act (ha : ¬a.Concerns b id) :
    (b.act a).subscribersOf id = b.subscribersOf id := by
  cases a with
  | publish e => exact (subscribersOf_setSubscribers ..).trans (if_neg (Ne.symm ha))
  | subscribe job =>
    simp only [Bus.act]
    split
    next hb =>
      obtain ⟨-, rfl⟩ := eq_of_subscribe hb
      exact (subscribersOf_setSubscribers ..).trans (if_neg (Ne.symm ha))
    next => rfl
  | subscribeAll => rfl
  | use s x =>
    have htopic (r : Receiver) (hr : b.receiver? s = some r) : r.topic ≠ .job id := fun ht =>
      ha ⟨r, hr, ht⟩
    cases x with
    | receive =>
      simp only [Bus.act, Bus.use, tryReceive]
      split
      · split <;> rfl
      · rfl
    | close => rfl
    | remove => exact subscribersOf_finishLeaving htopic
    | discard =>
      refine (subscribersOf_unsubscribe fun r hr => ?_).trans (subscribersOf_finishLeaving htopic)
      exact htopic r ((receiver?_finishLeaving ..).symm.trans hr)
  | shutDown => exact absurd trivial ha

theorem subscribersOf_acts {as : List Act} (hl : as.length ≤ 1) (ha : ∀ a ∈ as, ¬a.Concerns b id) :
    (b.acts as).subscribersOf id = b.subscribersOf id := by
  rcases List.eq_nil_or_concat' as with rfl | ⟨before, a, rfl⟩
  · rfl
  · obtain rfl : before = [] := by simpa using hl
    exact subscribersOf_act (ha a List.mem_cons_self)

/-! ## Many acts -/

/-- Acts that are no first steps leave nobody half-way out who was not so before. -/
theorem Accounted.acts {as : List Act} (h : Accounted l b)
    (ha : ∀ a ∈ as, a.isShutDown = false ∧ ∀ s, a ≠ .use s .close) : Accounted l (b.acts as) := by
  induction as generalizing b with
  | nil => exact h
  | cons a as ih =>
    obtain ⟨⟨hs, hc⟩, has⟩ := List.forall_mem_cons.mp ha
    refine ih ((h.act hs).mono ?_) has
    cases a with
    | use s x =>
      cases x with
      | receive => exact List.Subset.refl l
      | close => exact absurd rfl (hc s)
      | remove | discard => exact List.filter_subset_self _
    | _ => exact List.Subset.refl l

theorem limit_acts (b : Bus) (as : List Act) : (b.acts as).limit = b.limit := by
  induction as generalizing b with
  | nil => rfl
  | cons a as ih => exact (ih (b.act a)).trans (limit_act b a)

end JobConsole.Bus
