import JobConsole.Live.Channel
import JobConsole.Proofs.Bus.Leaving

/-! # Opening and polling a channel

A channel is in one of a few shapes: about to say that its job is unknown, about to send the snapshot,
live, or closed. Polling keeps it in shape, moves its state forward only, and does to the bus at most
one thing to the one handle that the channel holds.
-/

namespace JobConsole.Live

def Frame.isKeepAlive : Frame → Bool
  | .keepAlive => true
  | _ => false

/-- Frames without keep-alives. -/
def said (fs : List Frame) : List Frame := fs.filter (!·.isKeepAlive)

theorem said_append (fs fs' : List Frame) : said (fs ++ fs') = said fs ++ said fs' :=
  List.filter_append ..

def Poll.frame? : Poll → Option Frame
  | .frame f => some f
  | _ => none

def ChannelState.rank : ChannelState → Nat
  | .connecting => 0
  | .snapshotSent => 1
  | .streaming => 2
  | .closed => 3

theorem ChannelState.rank_le_closed (s : ChannelState) : s.rank ≤ ChannelState.closed.rank := by
  cases s <;> decide

theorem ChannelState.eq_closed {s : ChannelState} (h : ChannelState.closed.rank ≤ s.rank) :
    s = .closed := by
  cases s with
  | closed => rfl
  | _ => exact absurd h (by decide)

namespace Channel

def shut (c : Channel) : Channel := ⟨c.target, .closed, none, none, none⟩

def leaving (c : Channel) : List Bus.Act :=
  match c.subscription with
  | some s => [.use s .discard]
  | none => []

def topic (c : Channel) : Topic :=
  match c.target with
  | some id => .job id
  | none => .wildcard

/-- The pending frame, the subscription, the timer and the state fit together. -/
inductive Shape : Channel → Prop where
  | missing {id : String} : Shape ⟨some id, .connecting, some (.notFound id), none, none⟩
  | opened {id : String} {j : Job} {s : Nat} {t : Timer} :
      Shape ⟨some id, .connecting, some (.snapshot j), some s, some t⟩
  | live {target : Option String} {state : ChannelState} {s : Nat} {t : Timer}
      (h : state = .snapshotSent ∨ state = .streaming) :
      Shape ⟨target, state, none, some s, some t⟩
  | closed {target : Option String} : Shape ⟨target, .closed, none, none, none⟩

/-- What a poll comes to, the channel after it, and what it does to the bus. -/
inductive Polled (b : Bus) : Channel → Poll → Channel → List Bus.Act → Prop where
  | missing {id : String} :
      Polled b ⟨some id, .connecting, some (.notFound id), none, none⟩ (.frame (.notFound id))
        ⟨some id, .closed, none, none, none⟩ []
  | opened {id : String} {j : Job} {s : Nat} {t : Timer} :
      Polled b ⟨some id, .connecting, some (.snapshot j), some s, some t⟩ (.frame (.snapshot j))
        ⟨some id, .snapshotSent, none, some s, some t⟩ []
  | event {target : Option String} {state : ChannelState} {s : Nat} {t t' : Timer} {e : Event}
      (h : state = .snapshotSent ∨ state = .streaming) (he : (b.tryReceive s).1 = some e) :
      Polled b ⟨target, state, none, some s, some t⟩ (.frame (.event e))
        ⟨target, .streaming, none, some s, some t'⟩ [.use s .receive]
  | quiet {target : Option String} {state : ChannelState} {s : Nat} {t t' : Timer} {p : Poll}
      (h : state = .snapshotSent ∨ state = .streaming)
      (hp : p = .frame .keepAlive ∨ ∃ due, p = .idle due) :
      Polled b ⟨target, state, none, some s, some t⟩ p ⟨target, .streaming, none, some s, some t'⟩ []
  | cutOff {target : Option String} {state : ChannelState} {s : Nat} {t : Timer}
      (h : state = .snapshotSent ∨ state = .streaming) (hn : (b.tryReceive s).1 = none)
      (hc : b.isConnected s = false) :
      Polled b ⟨target, state, none, some s, some t⟩ .ended ⟨target, .closed, none, none, none⟩
        [.use s .discard]
  | closed {target : Option String} :
      Polled b ⟨target, .closed, none, none, none⟩ .ended ⟨target, .closed, none, none, none⟩ []

variable {c c' : Channel} {b : Bus} {p : Poll} {as : List Bus.Act}

/-- The channel's handle is in use. -/
def Holds (c : Channel) (b : Bus) : Prop :=
  ∀ s, c.subscription = some s → ∃ r, b.receiver? s = some r ∧ r.active = true

/-! ## Opening -/

section Opening

variable {r r' : Registry} {id : String} {j : Job} {keepAlive now : Nat}

theorem openJob_known (hj : r.get? id = some j)
    (ho : openJob r id keepAlive now = .ok (c, r')) :
    ∃ s t b, r.bus.subscribe id = .ok (s, b) ∧ r' = { r with bus := b } ∧
      c = ⟨some id, .connecting, some (.snapshot j), some s, some t⟩ := by
  simp only [openJob, Registry.watch, hj] at ho
  cases hb : r.bus.subscribe id with
  | error e =>
    obtain ⟨rfl, -⟩ := Bus.eq_of_subscribe_error hb
    rw [hb] at ho
    cases ho
  | ok x =>
    rw [hb] at ho
    cases ht : Timer.start? now keepAlive with
    | none =>
      rw [ht] at ho
      cases ho
    | some t =>
      rw [ht] at ho
      cases ho
      exact ⟨_, _, _, rfl, rfl, rfl⟩

theorem openJob_unknown (hj : r.get? id = none) :
    openJob r id keepAlive now =
      .ok (⟨some id, .connecting, some (.notFound id), none, none⟩, r) := by
  simp only [openJob, Registry.watch, hj]

theorem openJob_refused {e : Error}
    (ho : openJob r id keepAlive now = .error (.refused e)) :
    e = .tooManySubscribers id (r.bus.subscriberCount id) ∧ 0 < r.bus.limit ∧
      r.bus.limit ≤ r.bus.subscriberCount id := by
  cases hj : r.get? id with
  | none =>
    rw [openJob_unknown hj] at ho
    cases ho
  | some j =>
    simp only [openJob, Registry.watch, hj] at ho
    cases hb : r.bus.subscribe id with
    | error e' =>
      obtain ⟨rfl, hl⟩ := Bus.eq_of_subscribe_error hb
      rw [hb] at ho
      cases ho
      exact ⟨rfl, hl⟩
    | ok x =>
      rw [hb] at ho
      cases ht : Timer.start? now keepAlive <;> rw [ht] at ho <;> cases ho

end Opening

/-! ## Polling and closing -/

theorem acts_discard {s : Nat} {r : Receiver} (hr : b.receiver? s = some r)
    (ha : r.active = true) : b.acts [.use s .discard] = b.dropReceiver s :=
  congrArg (·.dropReceiver s) (Bus.finishLeaving_of_active hr ha)

theorem close_eq (h : c.Shape) (hb : c.Holds b) : c.close b = (c.shut, b.acts c.leaving) := by
  cases h with
  | missing => rfl
  | opened =>
    obtain ⟨r, hr, ha⟩ := hb _ rfl
    exact congrArg (Prod.mk _) (acts_discard hr ha).symm
  | live hs =>
    obtain ⟨r, hr, ha⟩ := hb _ rfl
    have := acts_discard hr ha
    rcases hs with rfl | rfl <;> exact congrArg (Prod.mk _) this.symm
  | closed => rfl

section Live

variable {target : Option String} {state : ChannelState} {s : Nat} {t : Timer} {r : Receiver}

theorem polled_pollBus (h : state = .snapshotSent ∨ state = .streaming)
    (hr : b.receiver? s = some r) (ha : r.active = true) (now : Nat) (tick : Option Timer) :
    ∃ p c' as, pollBus ⟨target, .streaming, none, some s, some t⟩ b s t now tick =
        (p, c', b.acts as) ∧
      Polled b ⟨target, state, none, some s, some t⟩ p c' as := by
  cases hq : r.queue with
  | cons e rest =>
    have hrecv := Bus.tryReceive_cons hr hq
    have he : (b.tryReceive s).1 = some e := by rw [hrecv]
    have hevent : b.receive s = (.event e, b.use s .receive) :=
      Prod.ext (by simp only [Bus.receive, hrecv]) (b.use_receive s).symm
    refine ⟨.frame (.event e), ⟨target, .streaming, none, some s, some (t.reset now)⟩,
      [.use s .receive], ?_, .event h he⟩
    simp only [pollBus, hevent]
    rfl
  | nil =>
    have hrecv := Bus.tryReceive_nil hr hq
    have hn : (b.tryReceive s).1 = none := by rw [hrecv]
    cases hc : b.isConnected s with
    | true =>
      cases tick with
      | some t' =>
        refine ⟨.frame .keepAlive, ⟨target, .streaming, none, some s, some t'⟩, [], ?_,
          .quiet h (.inl rfl)⟩
        simp only [pollBus, Bus.receive, hrecv, hc]
        rfl
      | none =>
        refine ⟨.idle t.due, ⟨target, .streaming, none, some s, some t⟩, [], ?_,
          .quiet h (.inr ⟨t.due, rfl⟩)⟩
        simp only [pollBus, Bus.receive, hrecv, hc]
        rfl
    | false =>
      refine ⟨.ended, _, [.use s .discard], ?_, .cutOff h hn hc⟩
      simp only [pollBus, Bus.receive, hrecv, hc]
      exact congrArg (fun x => (_, _, x)) (acts_discard hr ha).symm

theorem polled_pollLive (h : state = .snapshotSent ∨ state = .streaming)
    (hr : b.receiver? s = some r) (ha : r.active = true) (now : Nat) (timerFirst : Bool) :
    ∃ p c' as, pollLive ⟨target, state, none, some s, some t⟩ b s t now timerFirst =
        (p, c', b.acts as) ∧
      Polled b ⟨target, state, none, some s, some t⟩ p c' as := by
  unfold pollLive
  split
  · exact ⟨_, _, [], rfl, .quiet h (.inl rfl)⟩
  · exact polled_pollBus h hr ha now _

theorem poll_live (h : state = .snapshotSent ∨ state = .streaming) (now : Nat) :
    (⟨target, state, none, some s, some t⟩ : Channel).poll b now =
      pollBus ⟨target, .streaming, none, some s, some t⟩ b s t now (t.tick? now) := by
  rcases h with rfl | rfl <;> rfl

theorem said_pollBus (hr : b.receiver? s = some r) (now : Nat) (tick : Option Timer) :
    said (pollBus ⟨target, .streaming, none, some s, some t⟩ b s t now tick).1.frame?.toList =
      (r.queue.map Frame.event).take 1 := by
  cases hq : r.queue with
  | cons e rest =>
    simp only [pollBus, Bus.receive, Bus.tryReceive_cons hr hq]
    rfl
  | nil =>
    simp only [pollBus, Bus.receive, Bus.tryReceive_nil hr hq]
    cases b.isConnected s <;> cases tick <;> rfl

/-- As events go before keep-alives, the first thing that is pending or queued is said at once. -/
theorem said_poll (h : c.Shape) (hc : c.subscription = some s) (hr : b.receiver? s = some r)
    (now : Nat) :
    said (c.poll b now).1.frame?.toList =
      (c.pending.toList ++ r.queue.map Frame.event).take 1 := by
  cases h with
  | opened => rfl
  | live hs =>
    obtain rfl := Option.some.inj hc
    rw [poll_live hs]
    exact said_pollBus hr now _
  | missing | closed => cases hc

end Live

theorem pollWith_of_closed (h : c.state = .closed) (timerFirst : Bool) (b : Bus) (now : Nat) :
    c.pollWith timerFirst b now = (.ended, c, b) := by
  simp only [pollWith, h]

/-- Waiting for a frame is a poll, and another one when the keep-alive is due if there is nothing before
that. -/
theorem next_cases (c : Channel) (b : Bus) (now : Nat) :
    (∃ p c' b', c.pollWith false b now = (p, c', b') ∧ (∀ due, p ≠ .idle due) ∧
      c.next b now = (p.frame?, c', b', now)) ∨
    ∃ due c' b' p c'' b'', c.pollWith false b now = (.idle due, c', b') ∧
      c'.pollWith false b' due = (p, c'', b'') ∧ c.next b now = (p.frame?, c'', b'', due) := by
  rcases hp : c.pollWith false b now with ⟨p, c', b'⟩
  have hnext : c.poll b now = (p, c', b') := hp
  cases p with
  | frame | ended => exact .inl ⟨_, c', b', rfl, nofun, by simp only [next, hnext]; rfl⟩
  | idle due =>
    rcases hp' : c'.pollWith false b' due with ⟨p, c'', b''⟩
    have hnext' : c'.poll b' due = (p, c'', b'') := hp'
    refine .inr ⟨due, c', b', p, c'', b'', rfl, hp', ?_⟩
    cases p <;> simp only [next, hnext, hnext'] <;> rfl

theorem next_of_closed (h : c.state = .closed) (b : Bus) (now : Nat) :
    c.next b now = (none, c, b, now) := by
  simp only [next, poll, pollWith_of_closed h]

theorem Shape.subscription_eq_none (h : c.Shape) (hc : c.state = .closed) :
    c.subscription = none := by
  cases h with
  | live hs => rcases hs with rfl | rfl <;> cases hc
  | closed => rfl
  | missing | opened => cases hc

theorem polled_pollWith (h : c.Shape) (hb : c.Holds b) (timerFirst : Bool) (now : Nat) :
    ∃ p c' as, c.pollWith timerFirst b now = (p, c', b.acts as) ∧ Polled b c p c' as := by
  cases h with
  | missing => exact ⟨_, _, _, rfl, .missing⟩
  | opened => exact ⟨_, _, _, rfl, .opened⟩
  | live hs =>
    obtain ⟨r, hr, ha⟩ := hb _ rfl
    obtain ⟨p, c', as, hp, hpolled⟩ := polled_pollLive hs hr ha now timerFirst
    refine ⟨p, c', as, ?_, hpolled⟩
    rcases hs with rfl | rfl <;> exact hp
  | closed => exact ⟨_, _, _, rfl, .closed⟩

theorem Polled.shape (h : Polled b c p c' as) : c'.Shape := by
  cases h with
  | missing | cutOff | closed => exact .closed
  | opened => exact .live (.inl rfl)
  | event | quiet => exact .live (.inr rfl)

theorem Polled.target_eq (h : Polled b c p c' as) : c'.target = c.target := by
  cases h <;> rfl

theorem Polled.rank_le (h : Polled b c p c' as) : c.state.rank ≤ c'.state.rank := by
  cases h with
  | event h | quiet h | cutOff h => rcases h with rfl | rfl <;> simp [ChannelState.rank]
  | _ => simp [ChannelState.rank]

theorem Polled.uses (h : Polled b c p c' as) :
    ∀ a ∈ as, ∃ s u, c.subscription = some s ∧ a = .use s u := by
  cases h with
  | event | cutOff => exact List.forall_mem_singleton.mpr ⟨_, _, rfl, rfl⟩
  | _ => exact List.forall_mem_nil _

theorem Polled.handle {s : Nat} (h : Polled b c p c' as) (hc : c'.subscription = some s) :
    c.subscription = some s := by
  cases h with
  | opened | event | quiet => exact hc
  | missing | cutOff | closed => cases hc

theorem Polled.pending_eq (h : Polled b c p c' as) : c'.pending = none := by
  cases h <;> rfl

/-- A channel gives up its handle only when there is nothing more to come. -/
theorem Polled.cut_off {s : Nat} {r : Receiver} (h : Polled b c p c' as)
    (hc : c.subscription = some s) (hc' : c'.subscription = none) (hr : b.receiver? s = some r) :
    p = .ended ∧ c'.state = .closed ∧ as = [.use s .discard] ∧ c.pending = none ∧
      r.queue = [] ∧ r.connected = false := by
  cases h with
  | cutOff _ hn hcon =>
    obtain rfl := Option.some.inj hc
    refine ⟨rfl, rfl, rfl, rfl, ?_, (Bus.isConnected_of_receiver? hr).symm.trans hcon⟩
    cases hq' : r.queue with
    | nil => rfl
    | cons e rest =>
      rw [Bus.tryReceive_cons hr hq'] at hn
      cases hn
  | opened | event | quiet => cases hc'
  | missing | closed => cases hc

/-- What a channel that goes on says comes off what is pending and queued. -/
theorem Polled.receiver?_eq {s : Nat} {r : Receiver} (h : Polled b c p c' as)
    (hc : c'.subscription = some s) (hr : b.receiver? s = some r) :
    ∃ q, (b.acts as).receiver? s = some (r.withQueue q) ∧
      said p.frame?.toList ++ c'.pending.toList ++ q.map Frame.event =
        c.pending.toList ++ r.queue.map Frame.event := by
  cases h with
  | opened => exact ⟨r.queue, hr, rfl⟩
  | quiet _ hp =>
    refine ⟨r.queue, hr, ?_⟩
    rcases hp with rfl | ⟨due, rfl⟩ <;> rfl
  | event _ he =>
    obtain rfl := Option.some.inj hc
    obtain ⟨q, hq, hr'⟩ := Bus.exists_queue_tryReceive hr
    refine ⟨q, hr', ?_⟩
    rw [← hq, he]
    rfl
  | missing | cutOff | closed => cases hc

theorem leaving_uses (c : Channel) :
    ∀ a ∈ c.leaving, ∃ s u, c.subscription = some s ∧ a = .use s u := by
  unfold leaving
  split
  next s hs => exact List.forall_mem_singleton.mpr ⟨s, _, hs, rfl⟩
  next => exact List.forall_mem_nil _

end Channel

end JobConsole.Live
