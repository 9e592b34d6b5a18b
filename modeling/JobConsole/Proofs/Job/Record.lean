import JobConsole.Proofs.Registry.Change

/-! # The record of a job

A job is started once, then finished once, and its record is filled in on the way: what is not known
yet is absent, and what has been found out stays. A call that comes out of order is refused and
leaves the record as it was; entries may be logged at any time.
-/

namespace JobConsole.Job

inductive Call where
  | start (pid : Option Nat) (now : Timestamp)
  | finish (exitCode : Option Int) (signal error : Option String) (now : Timestamp)
  | log (entry : LogEntry)

def answer (j : Job) : Call → Except Error Job
  | .start pid now => j.markRunning pid now
  | .finish exitCode signal error now => j.markFinished exitCode signal error now
  | .log entry => .ok (j.pushLog entry)

def call (j : Job) (c : Call) : Job :=
  match j.answer c with
  | .ok j' => j'
  | .error _ => j

def calls (j : Job) (cs : List Call) : Job := cs.foldl call j

/-- The moves of the status, by the calls that make them. -/
inductive Call.Moves : Call → Status → Status → Prop where
  | started {pid : Option Nat} {now : Timestamp} : Moves (.start pid now) .queued .running
  | succeeded {signal : Option String} {now : Timestamp} :
      Moves (.finish (some 0) signal none now) .running .succeeded
  | failed {exitCode : Option Int} {signal error : Option String} {now : Timestamp}
      (h : error ≠ none ∨ exitCode ≠ some 0) :
      Moves (.finish exitCode signal error now) .running .failed
  | logged {entry : LogEntry} {s : Status} : Moves (.log entry) s s

/-- What the record of a job tells at each status. -/
structure Filled (j : Job) : Prop where
  of_queued : j.status = .queued → j.pid = none ∧ j.startedAt = none ∧ j.completedAt = none ∧
    j.exitCode = none ∧ j.signal = none ∧ j.error = none
  of_running : j.status = .running → j.startedAt.isSome ∧ j.awaitingSlot = false ∧
    j.completedAt = none ∧ j.exitCode = none ∧ j.signal = none ∧ j.error = none
  of_succeeded : j.status = .succeeded →
    j.exitCode = some 0 ∧ j.error = none ∧ j.startedAt.isSome ∧ j.completedAt.isSome
  of_failed : j.status = .failed → j.error.isSome ∧ j.startedAt.isSome ∧ j.completedAt.isSome

variable {j j' : Job} {c : Call} {cs : List Call} {exitCode : Option Int}
  {signal error : Option String}

/-! ## Single calls -/

theorem outcome_eq_succeeded_iff :
    outcome exitCode error = .succeeded ↔ error = none ∧ exitCode = some 0 := by
  unfold outcome Status.ofExitCode
  cases error with
  | some e => simp
  | none => by_cases h : exitCode = some 0 <;> simp [h]

theorem outcome_eq_failed_iff :
    outcome exitCode error = .failed ↔ error ≠ none ∨ exitCode ≠ some 0 := by
  unfold outcome Status.ofExitCode
  cases error with
  | some e => simp
  | none => by_cases h : exitCode = some 0 <;> simp [h]

theorem isSome_finishedError (j : Job) (signal : Option String)
    (h : outcome exitCode error = .failed) :
    (j.finishedError exitCode signal error).isSome = true := by
  unfold finishedError
  cases error with
  | some e => rfl
  | none =>
    by_cases he : j.error = none
    · simp [h, he]
    · simpa [he] using Option.isSome_iff_ne_none.mpr he

theorem changed_of_answer (h : j.answer c = .ok j') : ∃ now change p, Changed j now change j' p := by
  cases c with
  | start pid now =>
    obtain ⟨hs, rfl⟩ := eq_of_markRunning h
    exact ⟨now, _, _, .started hs⟩
  | finish exitCode signal error now =>
    obtain ⟨hs, hj⟩ := eq_of_markFinished h
    exact ⟨now, _, _, .finished hs hj⟩
  | log entry =>
    obtain rfl := Except.ok.inj h
    exact ⟨entry.timestamp, _, _, .logged⟩

theorem markRunning_of_queued (h : j.status = .queued) (pid : Option Nat) (now : Timestamp) :
    j.markRunning pid now =
      .ok { j with
        status := .running, awaitingSlot := false, pid := pid, startedAt := some now } := by
  simp [markRunning, moveTo, h, Status.canMoveTo]

theorem markFinished_of_running (h : j.status = .running) (exitCode : Option Int)
    (signal error : Option String) (now : Timestamp) :
    j.markFinished exitCode signal error now =
      .ok { j with
        status := outcome exitCode error
        exitCode := exitCode
        signal := signal
        error := j.finishedError exitCode signal error
        completedAt := some now } := by
  simp [markFinished, moveTo, h, canMoveTo_outcome_iff.mpr]

/-- Calls are accepted exactly where they move the status, and move it so. -/
theorem answer_iff_moves {s : Status} :
    (∃ j', j.answer c = .ok j' ∧ j'.status = s) ↔ c.Moves j.status s := by
  constructor
  · rintro ⟨j', h, rfl⟩
    cases c with
    | start pid now =>
      obtain ⟨hs, rfl⟩ := eq_of_markRunning h
      exact hs ▸ .started
    | finish exitCode signal error now =>
      obtain ⟨hs, rfl⟩ := eq_of_markFinished h
      rw [hs]
      cases ho : outcome exitCode error with
      | succeeded =>
        obtain ⟨rfl, rfl⟩ := outcome_eq_succeeded_iff.mp ho
        exact .succeeded
      | failed => exact .failed (outcome_eq_failed_iff.mp ho)
      | queued | running =>
        have := isTerminal_outcome exitCode error
        simp [ho, Status.isTerminal] at this
    | log entry =>
      obtain rfl := Except.ok.inj h
      exact .logged
  · intro h
    generalize hs : j.status = s₀ at h
    cases h with
    | started => exact ⟨_, markRunning_of_queued hs _ _, rfl⟩
    | succeeded => exact ⟨_, markFinished_of_running hs _ _ _ _, rfl⟩
    | failed h => exact ⟨_, markFinished_of_running hs _ _ _ _, outcome_eq_failed_iff.mpr h⟩
    | logged => exact ⟨_, rfl, hs⟩

theorem eq_of_answer_error {e : Error} (h : j.answer c = .error e) :
    ∃ next, e = .illegalMove j.id j.status next ∧ j.status.canMoveTo next = false := by
  have of_moveTo {next : Status} {e : Error} (h : j.moveTo next = .error e) :
      e = .illegalMove j.id j.status next ∧ j.status.canMoveTo next = false := by
    unfold moveTo at h
    split at h
    · cases h
    next hn => exact ⟨(Except.error.inj h).symm, by simpa using hn⟩
  cases c with
  | start pid now =>
    simp only [answer, markRunning] at h
    split at h
    next e' he =>
      obtain rfl := Except.error.inj h
      exact ⟨_, of_moveTo he⟩
    · cases h
  | finish exitCode signal error now =>
    simp only [answer, markFinished] at h
    split at h
    next e' he =>
      obtain rfl := Except.error.inj h
      exact ⟨_, of_moveTo he⟩
    · cases h
  | log entry => cases h

theorem call_of_ok (h : j.answer c = .ok j') : j.call c = j' := by
  simp only [call, h]

theorem call_of_error {e : Error} (h : j.answer c = .error e) : j.call c = j := by
  simp only [call, h]

/-! ## The record -/

theorem filled_new (id : String) (command : List String) (cwd : String) (options : JobOptions)
    (logCapacity : Nat) (now : Timestamp) :
    (Job.new id command cwd options logCapacity now).Filled := by
  constructor
  · exact fun _ => ⟨rfl, rfl, rfl, rfl, rfl, rfl⟩
  all_goals
    intro h
    cases h

/-- No change of a job leaves its record with too little or too much. -/
theorem Filled.change {now : Timestamp} {change : Change} {p : Payload} (h : j.Filled)
    (hc : Changed j now change j' p) : j'.Filled := by
  cases hc with
  | started hs =>
    obtain ⟨-, -, hcompleted, hcode, hsignal, herror⟩ := h.of_queued hs
    constructor <;> intro hs' <;> cases hs'
    exact ⟨rfl, rfl, hcompleted, hcode, hsignal, herror⟩
  | logged | reported => exact ⟨h.of_queued, h.of_running, h.of_succeeded, h.of_failed⟩
  | @finished exitCode signal error _ hs hj =>
    obtain ⟨hstarted, -, -, -, -, herror⟩ := h.of_running hs
    have hterminal := isTerminal_outcome exitCode error
    subst hj
    constructor <;> intro ho <;> replace ho : outcome exitCode error = _ := ho
    · simp [ho, Status.isTerminal] at hterminal
    · simp [ho, Status.isTerminal] at hterminal
    · obtain ⟨rfl, rfl⟩ := outcome_eq_succeeded_iff.mp ho
      refine ⟨rfl, ?_, hstarted, rfl⟩
      simpa [finishedError, outcome, Status.ofExitCode] using herror
    · exact ⟨isSome_finishedError j signal ho, hstarted, rfl⟩

theorem Filled.call (h : j.Filled) (c : Call) : (j.call c).Filled := by
  cases ha : j.answer c with
  | error e =>
    rw [call_of_error ha]
    exact h
  | ok j' =>
    obtain ⟨now, change, p, hc⟩ := changed_of_answer ha
    rw [call_of_ok ha]
    exact h.change hc

theorem Filled.calls (h : j.Filled) (cs : List Call) : (j.calls cs).Filled := by
  induction cs generalizing j with
  | nil => exact h
  | cons c cs ih => exact ih (h.call c)

/-- At the end of a job only its log goes on. -/
theorem call_of_isTerminal (h : j.status.isTerminal = true) (c : Call) :
    ∃ log, j.call c = { j with log := log } := by
  cases ha : j.answer c with
  | error e => exact ⟨j.log, call_of_error ha⟩
  | ok j' =>
    have hm := answer_iff_moves.mp ⟨j', ha, rfl⟩
    cases c with
    | log entry => exact ⟨_, rfl⟩
    | _ =>
      generalize j.status = s at h hm
      generalize j'.status = s' at hm
      cases hm <;> cases h

theorem calls_of_isTerminal (h : j.status.isTerminal = true) (cs : List Call) :
    ∃ log, j.calls cs = { j with log := log } := by
  induction cs generalizing j with
  | nil => exact ⟨j.log, rfl⟩
  | cons c cs ih =>
    obtain ⟨log, hc⟩ := call_of_isTerminal h c
    obtain ⟨log', hcs⟩ := ih (j := j.call c) (by rw [hc]; exact h)
    refine ⟨log', hcs.trans ?_⟩
    rw [hc]

/-- Whatever a new job is asked for, in whatever order, its record tells at each moment what its
status says. A call is accepted exactly where it moves the status forward or logs an entry, and a
finished job has succeeded exactly if no error was given and its exit code is zero. A refused call
is a conflict and leaves the record as it was. At its end only the log of a job changes. -/
theorem record_follows_status (id : String) (command : List String) (cwd : String)
    (options : JobOptions) (logCapacity : Nat) (now : Timestamp) (cs : List Call) :
    let j := (Job.new id command cwd options logCapacity now).calls cs
    j.Filled ∧
    (∀ c s, (∃ j', j.answer c = .ok j' ∧ j'.status = s) ↔ c.Moves j.status s) ∧
    (∀ c e, j.answer c = .error e → (∃ text, e.failure = .conflict text) ∧ j.call c = j) ∧
    (∀ exitCode signal error now j', j.markFinished exitCode signal error now = .ok j' →
      (j'.status = .succeeded ↔ error = none ∧ exitCode = some 0)) ∧
    (j.status.isTerminal = true → ∀ cs', ∃ log, j.calls cs' = { j with log := log }) := by
  intro j
  refine ⟨(filled_new ..).calls cs, fun c s => answer_iff_moves, fun c e he => ⟨?_, call_of_error he⟩,
    fun exitCode signal error now j' hj => ?_, fun ht => calls_of_isTerminal ht⟩
  · obtain ⟨next, rfl, -⟩ := eq_of_answer_error he
    exact ⟨_, rfl⟩
  · obtain ⟨-, rfl⟩ := eq_of_markFinished hj
    exact outcome_eq_succeeded_iff

/-- A second start and a second end come to nothing, and what is logged later changes only the log.
-/
theorem record_follows_status_of_late_calls :
    let calls : List Call :=
      [.finish (some 0) none none default, .start (some 7) default, .start none default,
        .finish none (some "SIGKILL") none default, .finish (some 0) none none default]
    let j := (Job.new "a" ["true"] "/" .none 8 default).calls calls
    j.status = .failed ∧ j.pid = some 7 ∧ j.signal = some "SIGKILL" ∧ j.error.isSome = true ∧
      ∃ log, j.calls [.log ⟨.stdout, "late", default⟩, .start none default] =
        { j with log := log } := by
  intro calls j
  have hs : j.status = .failed := by decide
  obtain ⟨hj, -, -, -, hend⟩ := record_follows_status "a" ["true"] "/" .none 8 default calls
  refine ⟨hs, rfl, rfl, (hj.of_failed hs).1, hend ?_ _⟩
  exact (congrArg Status.isTerminal hs).trans rfl

end JobConsole.Job
