import JobConsole.Registry.Artifacts

/-! # Completion handler

The handler follows the events of every job. For each one that says a job is finished it resolves and
announces the artifacts of that job; every other event it passes over, so it never feeds itself.
-/

namespace JobConsole

structure CompletionHandler where
  subscription : Nat
  deriving DecidableEq, Repr

namespace CompletionHandler

def attach (r : Registry) : CompletionHandler × Registry :=
  let (s, r') := r.subscribeAll
  (⟨s⟩, r')

/-- What the handler does about an event. -/
def handle (fs : FileSystem) (now : Timestamp) (r : Registry) (e : Event) : Registry :=
  if e.isFinished then
    match r.resolveArtifacts fs e.jobId true now with
    | .ok (_, r') => r'
    | .error _ => r
  else r

/-- Takes the next event and handles it, if there is one. -/
def step (h : CompletionHandler) (r : Registry) (fs : FileSystem) (now : Timestamp) :
    Option Registry :=
  match r.bus.tryReceive h.subscription with
  | (some e, b) => some (handle fs now { r with bus := b } e)
  | (none, _) => none

/-- Takes at most `n` events, one after the other. -/
def steps (h : CompletionHandler) (fs : FileSystem) (now : Timestamp) (r : Registry) :
    Nat → Registry
  | 0 => r
  | n + 1 =>
    match h.step r fs now with
    | some r' => h.steps fs now r' n
    | none => r

/-- Handles events until none is left. Each handled event causes at most one more. -/
def settle (h : CompletionHandler) (r : Registry) (fs : FileSystem) (now : Timestamp) :
    Registry :=
  h.steps fs now r (2 * ((r.bus.receiver? h.subscription).elim 0 (·.queue.length)))

def detach (h : CompletionHandler) (r : Registry) : Registry :=
  { r with bus := r.bus.dropReceiver h.subscription }

end CompletionHandler

end JobConsole
