import JobConsole.Event

/-! # Event bus

The bus fans every published event out to the subscribers of its job and to those of every job. Each
subscriber owns an unbounded queue. A receiver is one handle on such a queue; closing it and taking
it out of the table are two steps, and a publication in between finds the receiver closed and drops
it from the table.
-/

namespace JobConsole

inductive Topic where
  | job (id : String)
  | wildcard
  deriving DecidableEq, Repr

def Topic.jobId? : Topic → Option String
  | job id => some id
  | wildcard => none

structure Receiver where
  id : Nat
  topic : Topic
  /-- Delivered and not yet taken, oldest first. -/
  queue : List Event
  /-- Whether the queue still takes events. -/
  connected : Bool
  /-- Whether the handle has not been unsubscribed. -/
  active : Bool

structure Bus where
  /-- Most subscribers of one job; zero means no limit. -/
  limit : Nat
  /-- The next handle. It has no bound, though handles are counted in 64 bits. -/
  nextId : Nat
  /-- The subscribers of each job that has any. -/
  byJob : List (String × List Nat)
  wildcard : List Nat
  receivers : List Receiver

/-- What waiting for an event comes to. -/
inductive Received where
  | event (e : Event)
  | pending
  | closed

namespace Bus

def defaultLimit : Nat := 64

def new (limit : Nat) : Bus := ⟨limit, 0, [], [], []⟩

def subscribersOf (b : Bus) (job : String) : List Nat := (b.byJob.lookup job).getD []

def subscriberCount (b : Bus) (job : String) : Nat := (b.subscribersOf job).length

def wildcardCount (b : Bus) : Nat := b.wildcard.length

/-- Enters the subscribers of a job; a job without subscribers has no entry. -/
def setSubscribers (b : Bus) (job : String) (ids : List Nat) : Bus :=
  let others := b.byJob.filter (·.1 ≠ job)
  { b with byJob := if ids.isEmpty then others else (job, ids) :: others }

def receiver? (b : Bus) (id : Nat) : Option Receiver := b.receivers.find? (·.id = id)

def isConnected (b : Bus) (id : Nat) : Bool :=
  match b.receiver? id with
  | some r => r.connected
  | none => false

def updateReceiver (b : Bus) (id : Nat) (f : Receiver → Receiver) : Bus :=
  { b with receivers := b.receivers.map fun r => if r.id = id then f r else r }

/-! ## Publishing -/

/-- The subscribers that an event about the job reaches. -/
def audience (b : Bus) (job : String) : List Nat :=
  (b.subscribersOf job).filter b.isConnected ++ b.wildcard.filter b.isConnected

def deliver (e : Event) (ids : List Nat) (r : Receiver) : Receiver :=
  if ids.contains r.id then { r with queue := r.queue ++ [e] } else r

/-- Delivers an event and forgets the subscribers that it could not reach. -/
def publish (b : Bus) (e : Event) : Bus :=
  let pruned := b.setSubscribers e.jobId ((b.subscribersOf e.jobId).filter b.isConnected)
  { pruned with
    wildcard := b.wildcard.filter b.isConnected
    receivers := b.receivers.map (deliver e (b.audience e.jobId)) }

/-- How many subscribers a publication reaches. -/
def deliveredCount (b : Bus) (e : Event) : Nat := (b.audience e.jobId).length

/-! ## Subscribing -/

def addReceiver (b : Bus) (topic : Topic) : Bus :=
  { b with
    nextId := b.nextId + 1
    receivers := b.receivers ++ [⟨b.nextId, topic, [], true, true⟩] }

/-- The id of a new subscriber of the job, unless the job has as many as the limit allows. -/
def subscribe (b : Bus) (job : String) : Except Error (Nat × Bus) :=
  let ids := b.subscribersOf job
  if 0 < b.limit ∧ b.limit ≤ ids.length then .error (.tooManySubscribers job ids.length)
  else .ok (b.nextId, (b.addReceiver (.job job)).setSubscribers job (ids ++ [b.nextId]))

def subscribeAll (b : Bus) : Nat × Bus :=
  let b' := b.addReceiver .wildcard
  (b.nextId, { b' with wildcard := b'.wildcard ++ [b.nextId] })

/-! ## Receiving -/

/-- Takes the oldest delivered event, if there is one. -/
def tryReceive (b : Bus) (id : Nat) : Option Event × Bus :=
  match b.receiver? id with
  | some r =>
    match r.queue with
    | e :: rest => (some e, b.updateReceiver id fun r => { r with queue := rest })
    | [] => (none, b)
  | none => (none, b)

def receive (b : Bus) (id : Nat) : Received × Bus :=
  match b.tryReceive id with
  | (some e, b') => (.event e, b')
  | (none, b') => (if b.isConnected id then .pending else .closed, b')

/-- Takes every event delivered so far. -/
def receiveAll (b : Bus) (id : Nat) : List Event × Bus :=
  match b.receiver? id with
  | some r => (r.queue, b.updateReceiver id fun r => { r with queue := [] })
  | none => ([], b)

/-! ## Leaving -/

/-- The first step of unsubscribing: the queue takes no more events. -/
def closeReceiver (b : Bus) (id : Nat) : Bus :=
  b.updateReceiver id fun r => { r with connected := false, active := false }

/-- The second step: the subscriber leaves the table. -/
def removeSubscriber (b : Bus) (topic : Topic) (id : Nat) : Bus :=
  match topic with
  | .wildcard => { b with wildcard := b.wildcard.filter (· ≠ id) }
  | .job job => b.setSubscribers job ((b.subscribersOf job).filter (· ≠ id))

/-- Both steps, unless the handle has unsubscribed before. -/
def unsubscribe (b : Bus) (id : Nat) : Bus :=
  match b.receiver? id with
  | some r => if r.active then (b.closeReceiver id).removeSubscriber r.topic id else b
  | none => b

/-- Unsubscribes and discards the handle with what its queue holds. -/
def dropReceiver (b : Bus) (id : Nat) : Bus :=
  let b' := b.unsubscribe id
  { b' with receivers := b'.receivers.filter (·.id ≠ id) }

/-- The bus goes away: nothing is delivered any more, and handles keep what they hold. -/
def shutDown (b : Bus) : Bus :=
  { b with
    byJob := []
    wildcard := []
    receivers := b.receivers.map fun r => { r with connected := false } }

end Bus

end JobConsole
