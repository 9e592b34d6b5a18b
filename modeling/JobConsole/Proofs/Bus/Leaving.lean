import JobConsole.Proofs.Bus.Delivery

/-! # Leaving the bus

Nothing of a handle is left once it is discarded: its receiver is gone, and it stands nowhere in the
table. As handles are never given out again, that stays so.
-/

namespace JobConsole.Bus

/-- Nothing of a handle that was given out is left. -/
structure Gone (s : Nat) (b : Bus) : Prop where
  lt : s < b.nextId
  receiver?_eq : b.receiver? s = none
  notMem : ∀ t, s ∉ b.subscribers t

variable {b b' : Bus} {s u : Nat} {r : Receiver} {t : Topic}

theorem subscribers_congr (hj : b'.byJob = b.byJob) (hw : b'.wildcard = b.wildcard) (t : Topic) :
    b'.subscribers t = b.subscribers t := by
  cases t with
  | job id => simp only [subscribers, subscribersOf, hj]
  | wildcard => exact hw

/-! ## Acts that bring nobody in -/

/-- Nobody has come in. -/
structure Within (b' b : Bus) : Prop where
  nextId_eq : b'.nextId = b.nextId
  subset : ∀ t, b'.subscribers t ⊆ b.subscribers t
  none_of_none : ∀ s, b.receiver? s = none → b'.receiver? s = none

theorem Within.refl (b : Bus) : Within b b := ⟨rfl, fun _ => List.Subset.refl _, fun _ h => h⟩

theorem Within.trans {b'' : Bus} (h : Within b'' b') (h' : Within b' b) : Within b'' b := by
  constructor
  · exact h.nextId_eq.trans h'.nextId_eq
  · intro t
    exact List.Subset.trans (h.subset t) (h'.subset t)
  · intro s hs
    exact h.none_of_none s (h'.none_of_none s hs)

theorem within_updateReceiver {f : Receiver → Receiver} (hf : ∀ r, (f r).id = r.id) (b : Bus)
    (u : Nat) : Within (b.updateReceiver u f) b := by
  refine ⟨rfl, fun t => ?_, fun s hs => ?_⟩
  · rw [subscribers_congr rfl rfl]
    exact List.Subset.refl _
  · rw [receiver?_updateReceiver hf, hs, Option.map_none]

theorem within_removeSubscriber (b : Bus) (t : Topic) (u : Nat) :
    Within (b.removeSubscriber t u) b := by
  refine ⟨nextId_removeSubscriber .., fun v => ?_, fun s hs => ?_⟩
  · rw [subscribers_removeSubscriber]
    split
    next hv => exact hv ▸ List.filter_subset_self _
    next => exact List.Subset.refl _
  · rw [receiver?_removeSubscriber, hs]

theorem within_forget (b : Bus) (u : Nat) : Within (b.forget u) b := by
  refine ⟨rfl, fun t => ?_, fun s hs => ?_⟩
  · rw [subscribers_forget]
    exact List.Subset.refl _
  · rw [receiver?_forget, hs, ite_self]

theorem within_tryReceive (b : Bus) (u : Nat) : Within (b.tryReceive u).2 b := by
  unfold tryReceive
  split
  · split
    next rest _ => exact within_updateReceiver (mild_withQueue rest).id_eq b u
    next => exact .refl b
  · exact .refl b

theorem within_closeReceiver (b : Bus) (u : Nat) : Within (b.closeReceiver u) b :=
  within_updateReceiver mild_closed.id_eq b u

theorem within_finishLeaving (b : Bus) (u : Nat) : Within (b.finishLeaving u) b := by
  unfold finishLeaving
  split
  · split
    · exact .refl b
    · exact within_removeSubscriber ..
  · exact .refl b

theorem within_unsubscribe (b : Bus) (u : Nat) : Within (b.unsubscribe u) b := by
  unfold unsubscribe
  split
  · split
    · exact (within_removeSubscriber ..).trans (within_closeReceiver b u)
    · exact .refl b
  · exact .refl b

theorem within_dropReceiver (b : Bus) (u : Nat) : Within (b.dropReceiver u) b :=
  (within_forget _ u).trans (within_unsubscribe b u)

theorem within_use (b : Bus) (u : Nat) (x : Use) : Within (b.use u x) b := by
  cases x with
  | receive => exact within_tryReceive b u
  | close => exact within_closeReceiver b u
  | remove => exact within_finishLeaving b u
  | discard => exact (within_dropReceiver _ u).trans (within_finishLeaving b u)

theorem within_publish (b : Bus) (e : Event) : Within (b.publish e) b := by
  refine ⟨rfl, fun t => ?_, fun s hs => ?_⟩
  · rw [subscribers_publish]
    split
    · exact List.filter_subset_self _
    · exact List.Subset.refl _
  · rw [receiver?_publish, hs, Option.map_none]

theorem within_shutDown (b : Bus) : Within b.shutDown b := by
  refine ⟨rfl, fun t => ?_, fun s hs => ?_⟩
  · cases t <;> exact List.nil_subset _
  · rw [receiver?_shutDown, hs, Option.map_none]

/-! ## Gone for good -/

theorem Gone.within (h : Gone s b) (hw : Within b' b) : Gone s b' := by
  constructor
  · exact hw.nextId_eq ▸ h.lt
  · exact hw.none_of_none s h.receiver?_eq
  · intro t hs
    exact h.notMem t (hw.subset t hs)

theorem Gone.enter (h : Gone s b) (hr : b'.receivers = (b.addReceiver t).receivers)
    (hn : b'.nextId = b.nextId + 1)
    (hs : ∀ u, b'.subscribers u = if u = t then b.subscribers t ++ [b.nextId] else b.subscribers u) :
    Gone s b' := by
  have hne : b.nextId ≠ s := Nat.ne_of_gt h.lt
  refine ⟨hn ▸ Nat.lt_succ_of_lt h.lt, ?_, fun u hu => ?_⟩
  · have := receiver?_addReceiver b t s
    rw [h.receiver?_eq, if_neg hne] at this
    unfold receiver? at this ⊢
    rw [hr, this]
    rfl
  · rw [hs] at hu
    split at hu
    · rcases List.mem_append.mp hu with hu | hu
      · exact h.notMem t hu
      · exact hne (List.mem_singleton.mp hu).symm
    · exact h.notMem u hu

theorem Gone.act (h : Gone s b) (a : Act) : Gone s (b.act a) := by
  cases a with
  | publish e => exact h.within (within_publish b e)
  | subscribe job =>
    simp only [Bus.act]
    split
    next hb =>
      obtain ⟨rfl, rfl⟩ := eq_of_subscribe hb
      exact h.enter rfl rfl (subscribers_setSubscribers _ job _)
    next => exact h
  | subscribeAll => exact h.enter rfl rfl fun u => by cases u <;> rfl
  | use u x => exact h.within (within_use b u x)
  | shutDown => exact h.within (within_shutDown b)

theorem Gone.acts (h : Gone s b) (as : List Act) : Gone s (b.acts as) := by
  induction as generalizing b with
  | nil => exact h
  | cons a as ih => exact ih (h.act a)

theorem finishLeaving_of_active (hr : b.receiver? s = some r) (ha : r.active = true) :
    b.finishLeaving s = b := by
  simp only [finishLeaving, hr, ha, ↓reduceIte]

theorem unsubscribe_of_active (hr : b.receiver? s = some r) (ha : r.active = true) :
    b.unsubscribe s = (b.closeReceiver s).removeSubscriber r.topic s := by
  simp only [unsubscribe, hr, ha, ↓reduceIte]

theorem WellFormed.gone_dropReceiver (h : b.WellFormed) (hr : b.receiver? s = some r)
    (ha : r.active = true) : Gone s (b.dropReceiver s) := by
  have hlt := h.receiver_lt r (mem_of_receiver? hr)
  rw [id_of_receiver? hr] at hlt
  constructor
  · exact (within_dropReceiver b s).nextId_eq.symm ▸ hlt
  · rw [receiver?_dropReceiver, if_pos rfl]
  · intro t hs
    replace hs := subscribers_forget (b.unsubscribe s) s t ▸ hs
    rw [unsubscribe_of_active hr ha, subscribers_removeSubscriber] at hs
    split at hs
    · simp at hs
    next hne =>
      have hs := (within_closeReceiver b s).subset t hs
      exact hne (h.topic_eq hs hr).symm

end JobConsole.Bus
