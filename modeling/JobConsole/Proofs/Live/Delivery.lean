import JobConsole.Proofs.Live.Hub

/-! # What a channel delivers

A channel on a job says the record that it was opened on, and then every later event about the job, in
order and each once. What it has not said waits in its queue, for as long as the channel is open. A
channel on an unknown job says just that. States go forward only, and with the last state the handle
of the channel is off the bus for good. Whoever waits for the next frame polls the channel once or twice
(`exists_run_next`).
-/

namespace JobConsole.Live.Hub

def script (j : Job) (es : List Event) : List Frame := .snapshot j :: es.map Frame.event

/-- How a channel on a known job stands that has said some frames of its script. -/
inductive Follows (h : Hub) (k s : Nat) (id : String) (fs all : List Frame) (left : Prop) : Prop where
  /-- The rest of the script is pending or queued, and comes piece by piece. -/
  | opened {c : Channel} (hk : h.channels[k]? = some c) (ht : c.target = some id)
      (ho : c.state ≠ .closed) (hc : c.subscription = some s) (hp : c.pending = none ∨ fs = [])
      (he : fs ++ c.pending.toList ++ (h.bus.queueOf s).map Frame.event = all)
      (hn : ∀ now, said (h.yielded k (.poll k false now)) =
        (c.pending.toList ++ (h.bus.queueOf s).map Frame.event).take 1)
      (hr : h.running = true → s ∈ h.bus.subscribers (.job id)) : Follows h k s id fs all left
  /-- The channel has been closed before the end of the script, or has come to its end. -/
  | closed {c : Channel} (hk : h.channels[k]? = some c) (ht : c.target = some id)
      (ho : c.state = .closed) (hc : c.subscription = none) (hf : fs <+: all)
      (hl : left ∨ fs = all ∧ h.running = false) (hg : h.bus.Gone s) : Follows h k s id fs all left

/-- How a channel on an unknown job stands that has said some frames. -/
inductive Misses (h : Hub) (k : Nat) (id : String) (fs : List Frame) (left : Prop) : Prop where
  | waiting {c : Channel} (hk : h.channels[k]? = some c) (hf : fs = [])
      (hc : c = ⟨some id, .connecting, some (.notFound id), none, none⟩)
      (hn : ∀ timerFirst now, h.yielded k (.poll k timerFirst now) = [.notFound id] ∧
        (h.act (.poll k timerFirst now)).channels[k]? = some c.shut) : Misses h k id fs left
  | closed {c : Channel} (hk : h.channels[k]? = some c) (ho : c.state = .closed)
      (hc : c.subscription = none) (hf : fs = [.notFound id] ∨ left ∧ fs = []) :
      Misses h k id fs left

variable {h h' : Hub} {a : Act} {as : List Bus.Act} {k s : Nat} {c c' : Channel} {id : String}
  {j : Job} {fs all : List Frame} {es : List Event} {left : Prop}

theorem script_append (j : Job) (es es' : List Event) :
    script j (es ++ es') = script j es ++ es'.map Frame.event :=
  congrArg (Frame.snapshot j :: ·) List.map_append

theorem yielded_of_not_on (ho : ¬a.On k) : h.yielded k a = [] := by
  cases a with
  | poll => exact if_neg ho
  | _ => rfl

theorem yielded_poll (hk : h.channels[k]? = some c) (timerFirst : Bool) (now : Nat) :
    h.yielded k (.poll k timerFirst now) =
      (c.pollWith timerFirst h.bus now).1.frame?.toList := by
  simp only [yielded, hk, ↓reduceIte]

theorem act_poll (hk : h.channels[k]? = some c) {timerFirst : Bool} {now : Nat} {p : Poll} {b : Bus}
    (hp : c.pollWith timerFirst h.bus now = (p, c', b)) :
    h.act (.poll k timerFirst now) = (h.withBus b).setChannel k c' := by
  simp only [act, hk, hp]

/-- Waiting for the next frame of a channel is polling it once or twice. -/
theorem exists_run_next (hk : h.channels[k]? = some c) (now : Nat) :
    ∃ as, (∀ a ∈ as, ∃ now', a = .poll k false now') ∧
      frames k h as = (c.next h.bus now).1.toList ∧
      h.run as = (h.withBus (c.next h.bus now).2.2.1).setChannel k (c.next h.bus now).2.1 := by
  rcases c.next_cases h.bus now with ⟨p, c', b, hp, -, hn⟩ | ⟨due, c', b, p, c'', b', hp, hp', hn⟩
  · refine ⟨[.poll k false now], List.forall_mem_singleton.mpr ⟨_, rfl⟩, ?_, ?_⟩
    · simp only [frames, yielded_poll hk, hp, hn, List.append_nil]
    · rw [hn]
      exact act_poll hk hp
  · have hk' : ((h.withBus b).setChannel k c').channels[k]? = some c' := by
      simp [setChannel, withBus, (List.getElem?_eq_some_iff.mp hk).1]
    refine ⟨[.poll k false now, .poll k false due],
      List.forall_mem_cons.mpr ⟨⟨_, rfl⟩, List.forall_mem_singleton.mpr ⟨_, rfl⟩⟩, ?_, ?_⟩
    · simp only [frames, yielded_poll hk, hp, act_poll hk hp, yielded_poll hk', List.append_nil, hn]
      exact congrArg (fun x => x.1.frame?.toList) hp'
    · simp only [run, List.foldl_cons, List.foldl_nil, act_poll hk hp]
      rw [act_poll hk' hp', hn]
      simp only [setChannel, withBus, List.set_set]

theorem Happens.exists_comes (hh : Happens h a h' as) (hs : h.Sound)
    (hk : h.channels[k]? = some c) : ∃ c', h'.channels[k]? = some c' ∧ Comes h k a as c' := by
  have hlt := (List.getElem?_eq_some_iff.mp hk).1
  have hle : h.channels.length ≤ h'.channels.length := by
    cases hh <;> simp [enter, setChannel, withBus]
  have hk' := List.getElem?_eq_getElem (Nat.lt_of_lt_of_le hlt hle)
  exact ⟨_, hk', hh.comes hs hk'⟩

theorem ne_length (hk : h.channels[k]? = some c) : k ≠ h.channels.length :=
  Nat.ne_of_lt (List.getElem?_eq_some_iff.mp hk).1

/-! ## States -/

theorem Comes.forward (hm : Comes h k a as c') (hk : h.channels[k]? = some c) :
    c'.target = c.target ∧ c.state.rank ≤ c'.state.rank := by
  cases hm with
  | kept hk' _ =>
    obtain rfl := Option.some.inj (hk.symm.trans hk')
    exact ⟨rfl, Nat.le_refl _⟩
  | polled hk' hp _ =>
    obtain rfl := Option.some.inj (hk.symm.trans hk')
    exact ⟨hp.target_eq, hp.rank_le⟩
  | closed hk' =>
    obtain rfl := Option.some.inj (hk.symm.trans hk')
    exact ⟨rfl, c.state.rank_le_closed⟩
  | entered he _ _ _ => exact absurd he (ne_length hk)

theorem Sound.forward (hs : h.Sound) (hk : h.channels[k]? = some c) (as : List Act) :
    ∃ c', (h.run as).channels[k]? = some c' ∧ c'.target = c.target ∧
      c.state.rank ≤ c'.state.rank := by
  induction as generalizing h c with
  | nil => exact ⟨c, hk, rfl, Nat.le_refl _⟩
  | cons a as ih =>
    obtain ⟨_, hh⟩ := happens hs a
    obtain ⟨c₁, hk₁, hm⟩ := hh.exists_comes hs hk
    obtain ⟨ht, hr⟩ := hm.forward hk
    obtain ⟨c₂, hk₂, ht', hr'⟩ := ih (hs.act a) hk₁
    exact ⟨c₂, hk₂, ht'.trans ht, Nat.le_trans hr hr'⟩

/-! ## Known jobs -/

theorem Sound.queueOf_eq (hs : h.Sound) (hk : h.channels[k]? = some c)
    (hc : c.subscription = some s) : ∃ r, h.bus.receiver? s = some r ∧ h.bus.queueOf s = r.queue ∧
      r.topic = c.topic ∧ r.connected = h.running := by
  obtain ⟨r, hr, ht, -, hcon⟩ := hs.served hk hc
  exact ⟨r, hr, Bus.queueOf_eq hr, ht, hcon⟩

theorem Sound.follows (hs : h.Sound) (hk : h.channels[k]? = some c) (ht : c.target = some id)
    (hc : c.subscription = some s) (hp : c.pending = none ∨ fs = [])
    (he : fs ++ c.pending.toList ++ (h.bus.queueOf s).map Frame.event = all) :
    Follows h k s id fs all left := by
  obtain ⟨r, hr, hq, htop, hcon⟩ := hs.queueOf_eq hk hc
  refine .opened hk ht (fun ho => ?_) hc hp he (fun now => ?_) fun hrun => ?_
  · rw [(hs.shape hk).subscription_eq_none ho] at hc
    cases hc
  · rw [yielded_poll hk, hq]
    exact Channel.said_poll (hs.shape hk) hc hr now
  · have := hs.bus.enrolled hr (hcon.trans hrun)
    rwa [htop, Channel.topic, ht] at this

theorem Sound.gone (hs : h.Sound) (hk : h.channels[k]? = some c) (hc : c.subscription = some s) :
    (h.bus.acts [.use s .discard]).Gone s := by
  obtain ⟨r, hr, -, ha, -⟩ := hs.served hk hc
  rw [Channel.acts_discard hr ha]
  exact hs.bus.gone_dropReceiver hr ha

section Open

variable (hs : h.Sound) (hk : h.channels[k]? = some c) (ht : c.target = some id)
  (hc : c.subscription = some s)
  (he : fs ++ c.pending.toList ++ (h.bus.queueOf s).map Frame.event = script j es)
include hs hk ht hc he

/-- What others do adds to the queue what it adds to the script. -/
theorem Happens.follows_kept (hh : Happens h a h' as) (hs' : h'.Sound)
    (hk' : h'.channels[k]? = some c) (ho : ¬a.On k) (hp : c.pending = none ∨ fs = []) :
    Follows h' k s id fs (script j (es ++ h.told id a)) left := by
  obtain ⟨r, hr, hq, htop, hcon⟩ := hs.queueOf_eq hk hc
  obtain ⟨q, hr', hq'⟩ := hh.receiver?_eq hs hk hc ho hr hcon
  have htop' : r.topic = .job id := by rw [htop, Channel.topic, ht]
  have hqueue : h'.bus.queueOf s = h.bus.queueOf s ++ h.told id a := by
    rw [Bus.queueOf_eq hr', hq' id htop', hq]
  refine hs'.follows hk' ht hc hp ?_
  rw [hqueue, script_append, ← he, List.map_append, List.append_assoc, List.append_assoc,
    List.append_assoc]

theorem Happens.follows_polled {timerFirst : Bool} {now : Nat} {p : Poll}
    (hh : Happens h (.poll k timerFirst now) h' as) (hs' : h'.Sound)
    (hk' : h'.channels[k]? = some c') (hpoll : Channel.Polled h.bus c p c' as) :
    Follows h' k s id (fs ++ said p.frame?.toList) (script j es) left := by
  obtain ⟨r, hr, hq, -, hcon⟩ := hs.queueOf_eq hk hc
  have ht' : c'.target = some id := hpoll.target_eq.trans ht
  rw [← he, hq]
  cases hn : c'.subscription with
  | some s' =>
    obtain rfl := Option.some.inj (hc.symm.trans (hpoll.handle hn))
    obtain ⟨q, hr', hq'⟩ := hpoll.receiver?_eq hn hr
    rw [← hh.bus_eq] at hr'
    have hqueue : h'.bus.queueOf s = q := Bus.queueOf_eq hr'
    refine hs'.follows hk' ht' hn (.inl hpoll.pending_eq) ?_
    simp only [List.append_assoc, hqueue] at hq' ⊢
    rw [hq']
  | none =>
    obtain ⟨rfl, ho, rfl, hpend, hnil, hoff⟩ := hpoll.cut_off hc hn hr
    have hend : fs ++ c.pending.toList ++ r.queue.map Frame.event = fs := by
      simp only [hpend, hnil, Option.toList_none, List.map_nil, List.append_nil]
    have hfs : fs ++ said Poll.ended.frame?.toList = fs := List.append_nil fs
    have hrun : h'.running = false := (hh.running_eq rfl).trans (hcon.symm.trans hoff)
    rw [hend, hfs]
    exact .closed hk' ht' ho hn List.prefix_rfl (.inr ⟨rfl, hrun⟩) (hh.bus_eq ▸ hs.gone hk hc)

theorem Happens.follows_shut (hh : Happens h (.close k) h' c.leaving)
    (hk' : h'.channels[k]? = some c.shut) (hl : left) :
    Follows h' k s id fs (script j es) left := by
  have hg := hs.gone hk hc
  refine .closed hk' ht rfl rfl ?_ (.inl hl) ?_
  · rw [← he, List.append_assoc]
    exact List.prefix_append ..
  · rw [hh.bus_eq, Channel.leaving, hc]
    exact hg

theorem Happens.follows (hh : Happens h a h' as) (hs' : h'.Sound)
    (hp : c.pending = none ∨ fs = []) :
    Follows h' k s id (fs ++ said (h.yielded k a)) (script j (es ++ h.told id a))
      (left ∨ a = .close k) := by
  obtain ⟨c', hk', hm⟩ := hh.exists_comes hs hk
  cases hm with
  | kept hk₂ ho =>
    obtain rfl := Option.some.inj (hk.symm.trans hk₂)
    have hfs : fs ++ said (h.yielded k a) = fs := by
      rw [yielded_of_not_on ho]
      exact List.append_nil fs
    rw [hfs]
    exact hh.follows_kept hs hk ht hc he hs' hk' ho hp
  | @polled timerFirst now _ _ p _ hk₂ hpoll heq =>
    obtain rfl := Option.some.inj (hk.symm.trans hk₂)
    have hes : es ++ h.told id (.poll k timerFirst now) = es := List.append_nil es
    rw [yielded_poll hk, heq, hes]
    exact hh.follows_polled hs hk ht hc he hs' hk' hpoll
  | closed hk₂ =>
    obtain rfl := Option.some.inj (hk.symm.trans hk₂)
    have hfs : fs ++ said (h.yielded k (.close k)) = fs := List.append_nil fs
    have hes : es ++ h.told id (.close k) = es := List.append_nil es
    rw [hfs, hes]
    exact hh.follows_shut hs hk ht hc he hk' (.inr rfl)
  | entered hlen _ _ _ => exact absurd hlen (ne_length hk)

end Open

theorem Happens.still_closed (hh : Happens h a h' as) (hs : h.Sound)
    (hk : h.channels[k]? = some c) (ho : c.state = .closed) :
    ∃ c', h'.channels[k]? = some c' ∧ c'.target = c.target ∧ c'.state = .closed ∧
      c'.subscription = none ∧ h.yielded k a = [] := by
  obtain ⟨c', hk', hm⟩ := hh.exists_comes hs hk
  obtain ⟨ht, hle⟩ := hm.forward hk
  have ho' : c'.state = .closed := ChannelState.eq_closed (ho ▸ hle)
  refine ⟨c', hk', ht, ho', (hm.shape hs).subscription_eq_none ho', ?_⟩
  by_cases hon : a.On k
  · cases a with
    | poll k' timerFirst now =>
      obtain rfl : k' = k := hon
      rw [yielded_poll hk, Channel.pollWith_of_closed ho]
      rfl
    | _ => rfl
  · exact yielded_of_not_on hon

theorem Happens.not_running (hh : Happens h a h' as) (hr : h.running = false) :
    h'.running = false := by
  cases hh <;> first | exact hr | rfl

theorem Follows.act (hf : Follows h k s id fs (script j es) left) (hs : h.Sound) (a : Act) :
    Follows (h.act a) k s id (fs ++ said (h.yielded k a)) (script j (es ++ h.told id a))
      (left ∨ a = .close k) := by
  obtain ⟨as, hh⟩ := happens hs a
  cases hf with
  | opened hk ht _ hc hp he _ _ => exact hh.follows hs hk ht hc he (hs.act a) hp
  | closed hk ht ho hc hf hl hg =>
    obtain ⟨c', hk', ht', ho', hc', hy⟩ := hh.still_closed hs hk ho
    have hfs : fs ++ said (h.yielded k a) = fs := by
      rw [hy]
      exact List.append_nil fs
    rw [hfs, script_append]
    refine .closed hk' (ht'.trans ht) ho' hc' (hf.trans (List.prefix_append ..)) ?_
      (hh.bus_eq ▸ hg.acts as)
    rcases hl with hl | ⟨hl, hr⟩
    · exact .inl (.inl hl)
    · refine .inr ⟨?_, hh.not_running hr⟩
      rw [told_of_not_running hr, List.map_nil, List.append_nil, hl]

theorem Follows.run (hf : Follows h k s id fs (script j es) left) (hs : h.Sound)
    (as : List Act) :
    Follows (h.run as) k s id (fs ++ said (frames k h as)) (script j (es ++ published id h as))
      (left ∨ .close k ∈ as) := by
  induction as generalizing h fs es left with
  | nil => simpa [run, frames, published, said] using hf
  | cons a as ih =>
    have : Follows (h.run (a :: as)) .. := ih (hf.act hs a) (hs.act a)
    rw [frames, published, said_append]
    simpa only [List.append_assoc, List.mem_cons, or_assoc, eq_comm] using this

/-! ## Unknown jobs -/

theorem misses (hk : h.channels[k]? =
    some ⟨some id, .connecting, some (.notFound id), none, none⟩) : Misses h k id [] left := by
  refine .waiting hk rfl rfl fun timerFirst now => ⟨yielded_poll hk timerFirst now, ?_⟩
  have hlt := (List.getElem?_eq_some_iff.mp hk).1
  simp only [Hub.act, hk]
  exact List.getElem?_set_self hlt

theorem Misses.act (hm : Misses h k id fs left) (hs : h.Sound) (a : Act) :
    Misses (h.act a) k id (fs ++ h.yielded k a) (left ∨ a = .close k) := by
  obtain ⟨as, hh⟩ := happens hs a
  cases hm with
  | waiting hk hf hc _ =>
    subst hf hc
    obtain ⟨c', hk', hm⟩ := hh.exists_comes hs hk
    cases hm with
    | kept hk₂ ho =>
      obtain rfl := Option.some.inj (hk.symm.trans hk₂)
      rw [yielded_of_not_on ho]
      exact misses hk'
    | polled hk₂ hpoll heq =>
      obtain rfl := Option.some.inj (hk.symm.trans hk₂)
      rw [yielded_poll hk, heq]
      cases hpoll with
      | missing => exact .closed hk' rfl rfl (.inl rfl)
    | closed hk₂ => exact .closed hk' rfl rfl (.inr ⟨.inr rfl, rfl⟩)
    | entered hlen _ _ _ => exact absurd hlen (ne_length hk)
  | closed hk ho _ hf =>
    obtain ⟨c', hk', -, ho', hc', hy⟩ := hh.still_closed hs hk ho
    rw [hy, List.append_nil]
    exact .closed hk' ho' hc' (hf.imp_right fun hl => ⟨.inl hl.1, hl.2⟩)

theorem Misses.run (hm : Misses h k id fs left) (hs : h.Sound) (as : List Act) :
    Misses (h.run as) k id (fs ++ frames k h as) (left ∨ .close k ∈ as) := by
  induction as generalizing h fs left with
  | nil => simpa [run, frames] using hm
  | cons a as ih =>
    have : Misses (h.run (a :: as)) .. := ih (hm.act hs a) (hs.act a)
    rw [frames]
    simpa only [List.append_assoc, List.mem_cons, or_assoc, eq_comm] using this

/-! ## Opening -/

section Opening

variable {r : Registry} {keepAlive now : Nat}

theorem channel_enter_last (h : Hub) (c : Channel) :
    (h.enter c).channels[h.channels.length]? = some c :=
  List.getElem?_concat_length

theorem Sound.follows_openJob (hs : h.Sound) (hr : h.running = true)
    (hj : h.registry.get? id = some j)
    (ho : Channel.openJob h.registry id keepAlive now = .ok (c, r)) :
    (h.act (.openJob id keepAlive now)).channels[h.channels.length]? = some c ∧
      ∃ s, c.subscription = some s ∧
        Follows (h.act (.openJob id keepAlive now)) h.channels.length s id [] (script j [])
          False := by
  have hs₁ := hs.act (.openJob id keepAlive now)
  have ha := act_openJob hr ho
  obtain ⟨s, t, b, hb, rfl, rfl⟩ := Channel.openJob_known hj ho
  have hk := channel_enter_last { h with registry := { h.registry with bus := b } }
    ⟨some id, .connecting, some (.snapshot j), some s, some t⟩
  rw [← ha] at hk
  refine ⟨hk, s, rfl, hs₁.follows hk rfl rfl (.inr rfl) ?_⟩
  have hq : (h.act (.openJob id keepAlive now)).bus.queueOf s = [] := by
    rw [ha]
    exact Bus.queueOf_eq (hs.bus.receiver?_subscribe hb)
  rw [hq]
  rfl

theorem misses_openJob (hr : h.running = true) (hj : h.registry.get? id = none) :
    Misses (h.act (.openJob id keepAlive now)) h.channels.length id [] False := by
  rw [act_openJob hr (Channel.openJob_unknown hj)]
  exact misses (channel_enter_last h _)

end Opening

/-- Every channel delivers what it was opened for, among any number of channels and whatever happens to
the registry. -/
theorem channel_delivery {cfg : JobsConfig} {r₀ : Registry} (hnew : Registry.new cfg = some r₀)
    (before after : List Act) (id : String) (keepAlive now : Nat) :
    let h := (start r₀).run before
    let k := h.channels.length
    let h₁ := h.act (.openJob id keepAlive now)
    let h₂ := h₁.run after
    (∀ j c r, h.running = true → h.registry.get? id = some j →
      Channel.openJob h.registry id keepAlive now = .ok (c, r) →
      h₁.channels[k]? = some c ∧ ∃ s, c.subscription = some s ∧
        Follows h₂ k s id (said (frames k h₁ after)) (script j (published id h₁ after))
          (.close k ∈ after)) ∧
    (h.running = true → h.registry.get? id = none →
      Misses h₂ k id (frames k h₁ after) (.close k ∈ after)) ∧
    (∀ e, Channel.openJob h.registry id keepAlive now = .error e → h₁ = h ∧
      ∀ e', e = .refused e' → e' = .tooManySubscribers id (h.bus.subscriberCount id) ∧
        0 < h.bus.limit ∧ h.bus.limit ≤ h.bus.subscriberCount id) ∧
    ∀ (i : Nat) (c : Channel), h.channels[i]? = some c → ∃ c' : Channel,
      (h.run after).channels[i]? = some c' ∧ c'.target = c.target ∧ c.state.rank ≤ c'.state.rank ∧
      (c'.state = .closed → ∀ b timerFirst now,
        c'.pollWith timerFirst b now = (.ended, c', b) ∧ c'.next b now = (none, c', b, now)) := by
  intro h k h₁ h₂
  have hs : h.Sound := (sound_start hnew).run before
  have hs₁ : h₁.Sound := hs.act _
  refine ⟨?_, ?_, ?_, ?_⟩
  · intro j c r hr hj ho
    obtain ⟨hk, s, hc, hf⟩ := hs.follows_openJob hr hj ho
    refine ⟨hk, s, hc, ?_⟩
    simpa only [List.nil_append, false_or] using hf.run hs₁ after
  · intro hr hj
    simpa only [List.nil_append, false_or] using (misses_openJob hr hj).run hs₁ after
  · intro e ho
    refine ⟨act_openJob_of_error ho, ?_⟩
    rintro e' rfl
    exact Channel.openJob_refused ho
  · intro i c hk
    obtain ⟨c', hk', ht, hle⟩ := hs.forward hk after
    refine ⟨c', hk', ht, hle, ?_⟩
    intro hc b timerFirst now
    exact ⟨Channel.pollWith_of_closed hc timerFirst b now, Channel.next_of_closed hc b now⟩

/-- A channel that is closed early says less than has been published. -/
theorem channel_delivery_of_early_close :
    let before : List Act := [.operate default (.submit ["true"] .none "a")]
    let after : List Act :=
      [.poll 0 true 0, .operate default (.stage "a" "fetch" none),
        .operate default (.stage "a" "build" none), .poll 0 false 1, .close 0,
        .operate default (.stage "a" "check" none), .poll 0 false 2]
    ∃ r₀ j, Registry.new ⟨1, 1, 8, "/", "", ""⟩ = some r₀ ∧
      let h := (start r₀).run before
      let h₁ := h.act (.openJob "a" 25 0)
      h.registry.get? "a" = some j ∧
      (said (frames 0 h₁ after)).length = 2 ∧ (published "a" h₁ after).length = 3 ∧
      ∃ s, Follows (h₁.run after) 0 s "a" (said (frames 0 h₁ after))
        (script j (published "a" h₁ after)) True := by
  intro before after
  obtain ⟨r₀, hnew, j, c, r, hj, ho⟩ : ∃ r₀, Registry.new ⟨1, 1, 8, "/", "", ""⟩ = some r₀ ∧
      ∃ j c r, ((start r₀).run before).registry.get? "a" = some j ∧
        Channel.openJob ((start r₀).run before).registry "a" 25 0 = .ok (c, r) :=
    ⟨_, rfl, _, _, _, rfl, rfl⟩
  obtain ⟨hknown, -⟩ := channel_delivery hnew before after "a" 25 0
  have hrun : ((start r₀).run before).running = true := rfl
  obtain ⟨-, s, -, hf⟩ := hknown j c r hrun hj ho
  have hlen : ((start r₀).run before).channels.length = 0 := rfl
  have hleft : (Act.close 0 ∈ after) = True := eq_true (by simp [after])
  rw [hlen, hleft] at hf
  refine ⟨r₀, j, hnew, hj, ?_, ?_, s, hf⟩
  all_goals
    cases hnew
    cases hj
    decide +kernel

end JobConsole.Live.Hub
