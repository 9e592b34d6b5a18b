import JobConsole.Live.Timer
import JobConsole.Registry.Basic

/-! # Live channels

A live channel delivers one job to one observer: the job as it was when the channel was opened, then
every later event about it, with keep-alives while nothing happens. A channel on an unknown job says
so and ends. A channel on all jobs starts with events at once. Closing gives up the subscription and
the timer together.
-/

namespace JobConsole.Live

inductive ChannelState where
  | connecting
  | snapshotSent
  | streaming
  | closed
  deriving DecidableEq, Repr

inductive Frame where
  | snapshot (job : Job)
  | event (e : Event)
  | keepAlive
  | notFound (jobId : String)

structure Channel where
  /-- Absent for a channel on all jobs. -/
  target : Option String
  state : ChannelState
  /-- Delivered before anything else. -/
  pending : Option Frame
  subscription : Option Nat
  timer : Option Timer

/-- Why a channel cannot be opened. -/
inductive OpenError where
  | refused (e : Error)
  | periodTooLong

/-- What a channel has to deliver at a moment. -/
inductive Poll where
  | frame (f : Frame)
  /-- Nothing before the given moment, unless an event is published. -/
  | idle (due : Nat)
  | ended

namespace Channel

/-- Opens a channel on a job. -/
def openJob (r : Registry) (id : String) (keepAlive now : Nat) :
    Except OpenError (Channel × Registry) :=
  match r.watch id with
  | .error (.notFound ..) => .ok (⟨some id, .connecting, some (.notFound id), none, none⟩, r)
  | .error e => .error (.refused e)
  | .ok (j, s, r') =>
    match Timer.start? now keepAlive with
    | none => .error .periodTooLong
    | some t => .ok (⟨some id, .connecting, some (.snapshot j), some s, some t⟩, r')

/-- Opens a channel on all jobs. -/
def openAll (r : Registry) (keepAlive now : Nat) : Except OpenError (Channel × Registry) :=
  match Timer.start? now keepAlive with
  | none => .error .periodTooLong
  | some t =>
    let (s, r') := r.subscribeAll
    .ok (⟨none, .streaming, none, some s, some t⟩, r')

/-- Gives up the subscription and the timer. -/
def close (c : Channel) (b : Bus) : Channel × Bus :=
  match c.state with
  | .closed => (c, b)
  | _ =>
    let b' := match c.subscription with
      | some s => b.dropReceiver s
      | none => b
    (⟨c.target, .closed, none, none, none⟩, b')

/-- What the subscription of an open channel delivers, or else the timer: `tick` is the timer after it
has fired, if it is due. -/
def pollBus (c : Channel) (b : Bus) (s : Nat) (t : Timer) (now : Nat) (tick : Option Timer) :
    Poll × Channel × Bus :=
  match b.receive s with
  | (.event e, b') => (.frame (.event e), { c with timer := some (t.reset now) }, b')
  | (.closed, b') =>
    let (c', b'') := c.close b'
    (.ended, c', b'')
  | (.pending, b') =>
    match tick with
    | some t' => (.frame .keepAlive, { c with timer := some t' }, b')
    | none => (.idle t.due, c, b')

/-- What an open channel delivers when nothing is pending any more. Where an event waits and a
keep-alive is due, `timerFirst` says which of them is delivered. -/
def pollLive (c : Channel) (b : Bus) (s : Nat) (t : Timer) (now : Nat) (timerFirst : Bool) :
    Poll × Channel × Bus :=
  let c := { c with state := .streaming }
  match timerFirst, t.tick? now with
  | true, some t' => (.frame .keepAlive, { c with timer := some t' }, b)
  | _, tick => c.pollBus b s t now tick

/-- Takes what the channel has to deliver now. -/
def pollWith (timerFirst : Bool) (c : Channel) (b : Bus) (now : Nat) : Poll × Channel × Bus :=
  match c.state, c.pending with
  | .closed, _ => (.ended, c, b)
  | _, some (.notFound id) =>
    let (c', b') := c.close b
    (.frame (.notFound id), c', b')
  | _, some f => (.frame f, { c with state := .snapshotSent, pending := none }, b)
  | _, none =>
    match c.subscription, c.timer with
    | some s, some t => c.pollLive b s t now timerFirst
    | _, _ =>
      let (c', b') := c.close b
      (.ended, c', b')

/-- Takes what the channel has to deliver now, events before keep-alives. -/
def poll (c : Channel) (b : Bus) (now : Nat) : Poll × Channel × Bus := c.pollWith false b now

/-- Waits for the next frame, up to the next keep-alive; there is none once the channel is closed.
Also gives the moment at which the wait is over. -/
def next (c : Channel) (b : Bus) (now : Nat) : Option Frame × Channel × Bus × Nat :=
  match c.poll b now with
  | (.frame f, c', b') => (some f, c', b', now)
  | (.ended, c', b') => (none, c', b', now)
  | (.idle due, c', b') =>
    match c'.poll b' due with
    | (.frame f, c'', b'') => (some f, c'', b'', due)
    | (_, c'', b'') => (none, c'', b'', due)

end Channel

end JobConsole.Live
