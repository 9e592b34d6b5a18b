import JobConsole.Live.Channel
import JobConsole.Proofs.Config.Numbers
import JobConsole.Proofs.Execution.Slots

/-! # Settings and the limits of a console

An environment can give every number of 64 bits for the keep-alives and for the amounts of the job
engine. Two of the places where these numbers are used have limits of their own: slots must be countable,
and the clock must be able to show the moment of the first keep-alive. No other setting keeps a registry
from being made or a timer from being started.
-/

namespace JobConsole

/-! ## Amounts -/

/-- The settings of 64 bits that are used while the console runs. -/
inductive Amount where
  | keepAliveSecs
  | logCapacity
  | maxConcurrent
  | maxSubscribers

namespace Amount

def key : Amount → String
  | keepAliveSecs => "LIVE_KEEPALIVE_SECS"
  | logCapacity => "JOB_LOG_CAPACITY"
  | maxConcurrent => "JOB_MAX_CONCURRENT"
  | maxSubscribers => "JOB_MAX_SUBSCRIBERS"

def get (c : ServerConfig) : Amount → Nat
  | keepAliveSecs => c.keepAliveSecs
  | logCapacity => c.jobs.logCapacity
  | maxConcurrent => c.jobs.maxConcurrent
  | maxSubscribers => c.jobs.maxSubscribers

def put (c : ServerConfig) (n : Nat) : Amount → ServerConfig
  | keepAliveSecs => { c with keepAliveSecs := n }
  | logCapacity => { c with jobs := { c.jobs with logCapacity := n } }
  | maxConcurrent => { c with jobs := { c.jobs with maxConcurrent := n } }
  | maxSubscribers => { c with jobs := { c.jobs with maxSubscribers := n } }

end Amount

/-! ## Reading an environment -/

theorem bind_eq_ok_iff {ε α β : Type} {x : Except ε α} {f : α → Except ε β} {b : β} :
    (x >>= f) = .ok b ↔ ∃ a, x = .ok a ∧ f a = .ok b := by
  cases x <;> simp [bind, Except.bind]

variable {env : Environment} {current : String} {n : Nat}

theorem JobsConfig.fromEnvironment_eq_ok_iff {c : JobsConfig} :
    JobsConfig.fromEnvironment env current = .ok c ↔
      jobsNumber env "JOB_LOG_CAPACITY" Log.defaultCapacity = .ok c.logCapacity ∧
      jobsNumber env "JOB_MAX_CONCURRENT" 0 = .ok c.maxConcurrent ∧
      jobsNumber env "JOB_MAX_SUBSCRIBERS" Bus.defaultLimit = .ok c.maxSubscribers ∧
      (env.get? "JOB_WORKING_DIR").getD current = c.workingDir ∧
      ((env.get? "REFINERY_CLI").filter fun s => !Text.isAllBlank s).getD "refinery" = c.cliProgram ∧
      (env.get? "REFINERY_OUTPUT_ROOT").getD "./data/outputs" = c.outputRoot := by
  simp only [fromEnvironment, bind_eq_ok_iff, pure, Except.pure, Except.ok.injEq]
  constructor
  · rintro ⟨capacity, hcapacity, slots, hslots, limit, hlimit, rfl⟩
    exact ⟨hcapacity, hslots, hlimit, rfl, rfl, rfl⟩
  · rintro ⟨hcapacity, hslots, hlimit, hdir, hprogram, hroot⟩
    refine ⟨_, hcapacity, _, hslots, _, hlimit, ?_⟩
    rw [hdir, hprogram, hroot]

theorem ServerConfig.fromEnvironment_eq_ok_iff {c : ServerConfig} :
    ServerConfig.fromEnvironment env current = .ok c ↔
      serverNumber env "PORT" 16 3000 = .ok c.port ∧
      serverNumber env "REQUEST_TIMEOUT_SECS" 64 30 = .ok c.requestTimeoutSecs ∧
      serverNumber env "SHUTDOWN_TIMEOUT_SECS" 64 30 = .ok c.shutdownTimeoutSecs ∧
      serverNumber env "LIVE_KEEPALIVE_SECS" 64 25 = .ok c.keepAliveSecs ∧
      JobsConfig.fromEnvironment env current = .ok c.jobs ∧
      (env.get? "HOST").getD "0.0.0.0" = c.host ∧
      splitList ((env.get? "CORS_ORIGINS").getD "http://localhost:5173") = c.corsOrigins ∧
      (if (env.get? "LOG_FORMAT").any fun s => s.toLower = "json" then LogFormat.json else .pretty) =
        c.logFormat := by
  simp only [fromEnvironment, bind_eq_ok_iff, pure, Except.pure, Except.ok.injEq]
  constructor
  · rintro ⟨port, hport, request, hrequest, shutdown, hshutdown, period, hperiod, jobs, hjobs, rfl⟩
    exact ⟨hport, hrequest, hshutdown, hperiod, hjobs, rfl, rfl, rfl⟩
  · rintro ⟨hport, hrequest, hshutdown, hperiod, hjobs, hhost, horigins, hformat⟩
    refine ⟨_, hport, _, hrequest, _, hshutdown, _, hperiod, _, hjobs, ?_⟩
    rw [hhost, horigins, hformat]

namespace ServerConfig

variable {c : ServerConfig}

theorem keepAlive_pos (c : ServerConfig) : 0 < c.keepAlive :=
  Nat.lt_of_lt_of_le Nat.one_pos (Nat.le_max_right _ _)

theorem amount_lt (h : fromEnvironment env current = .ok c) (a : Amount) :
    a.get c < Nat.pow 2 64 := by
  obtain ⟨-, -, -, hperiod, hjobs, -⟩ := fromEnvironment_eq_ok_iff.mp h
  obtain ⟨hcapacity, hslots, hlimit, -⟩ := JobsConfig.fromEnvironment_eq_ok_iff.mp hjobs
  cases a with
  | keepAliveSecs => exact serverNumber_lt hperiod (by decide)
  | logCapacity => exact jobsNumber_lt hcapacity (by decide)
  | maxConcurrent => exact jobsNumber_lt hslots (by decide)
  | maxSubscribers => exact jobsNumber_lt hlimit (by decide)

/-- Every number of 64 bits is accepted for an amount, and leaves the other settings as they are. -/
theorem fromEnvironment_insert (h : fromEnvironment env current = .ok c) (a : Amount)
    (hn : n < Nat.pow 2 64) :
    fromEnvironment (env.insert a.key (toString n)) current = .ok (a.put c n) := by
  rw [fromEnvironment_eq_ok_iff, JobsConfig.fromEnvironment_eq_ok_iff] at h ⊢
  -- What is read under the key is the number, and what is read under other keys is what it was.
  cases a <;>
    simp only [Amount.key, Amount.put, serverNumber_insert hn, serverNumber_insert_of_ne,
      jobsNumber_insert hn, jobsNumber_insert_of_ne, Dict.get?_insert, ne_eq, String.reduceEq,
      not_false_eq_true, ↓reduceIte, h, and_self]

end ServerConfig

/-! ## Slots and the clock -/

namespace Registry

variable {c : JobsConfig} {r₀ : Registry}

theorem exists_new_iff : (∃ r, Registry.new c = some r) ↔ c.maxConcurrent ≤ maxSlots := by
  simp [Registry.new]

theorem freeSlots_le (h : Registry.new c = some r₀) {os : List Timed}
    (hd : ∀ o ∈ os, o.op.isDirect = false) {free : Nat}
    (hf : (r₀.runAll os).freeSlots = some free) : free ≤ c.maxConcurrent := by
  have hc : 0 < c.maxConcurrent := by
    have hsome := isSome_freeSlots_runAll r₀ os
    rw [hf, isSome_freeSlots_new h] at hsome
    exact of_decide_eq_true hsome.symm
  obtain ⟨free', hf', hb⟩ := balanced_runAll h hc hd
  obtain rfl := Option.some.inj (hf.symm.trans hf')
  omega

end Registry

namespace Live

theorem Timer.start?_eq_none_iff {now period : Nat} :
    Timer.start? now period = none ↔ maxInstant < now + period := by
  simp [start?]

namespace Channel

variable {r : Registry} {id : String} {period now : Nat}

theorem openAll_eq_error_iff {e : OpenError} :
    openAll r period now = .error e ↔ e = .periodTooLong ∧ Timer.maxInstant < now + period := by
  rw [← Timer.start?_eq_none_iff]
  unfold openAll
  split
  next hs => simp [hs, eq_comm]
  next hs => simp [hs]

theorem openJob_eq_periodTooLong_iff :
    openJob r id period now = .error .periodTooLong ↔
      Timer.maxInstant < now + period ∧ ∃ watched, r.watch id = .ok watched := by
  rw [← Timer.start?_eq_none_iff]
  unfold openJob
  -- Only a job that may be watched needs a timer.
  split
  next hw => simp [hw]
  next hw => simp [hw]
  next hw =>
    split
    next hs => simp [hw, hs]
    next hs => simp [hs]

end Channel

end Live

/-! ## What runs -/

/-- Where an environment is accepted, it is accepted with any number of 64 bits for an amount, and the
period of keep-alives is positive. A registry can be made just when no more slots are asked for than can be
counted, and then no more are ever free. Whatever the state of the registry, a channel that needs a timer
can be opened just when the clock can show the moment of its first keep-alive. -/
theorem ServerConfig.runs_within_limits {env : Environment} {current : String} {c : ServerConfig}
    (h : ServerConfig.fromEnvironment env current = .ok c) :
    (∀ (a : Amount) (n : Nat), n < Nat.pow 2 64 →
      ServerConfig.fromEnvironment (env.insert a.key (toString n)) current = .ok (a.put c n)) ∧
      (∀ a : Amount, a.get c < Nat.pow 2 64) ∧ 0 < c.keepAlive ∧
      ((∃ r, Registry.new c.jobs = some r) ↔ c.jobs.maxConcurrent ≤ Registry.maxSlots) ∧
      (∀ r₀ os, Registry.new c.jobs = some r₀ → (∀ o ∈ os, o.op.isDirect = false) →
        ∀ free, (r₀.runAll os).freeSlots = some free → free ≤ Registry.maxSlots) ∧
      (∀ r now, (∃ e, Live.Channel.openAll r c.keepAlive now = .error e) ↔
        Live.Timer.maxInstant < now + c.keepAlive) ∧
      ∀ r id now, Live.Channel.openJob r id c.keepAlive now = .error .periodTooLong ↔
        Live.Timer.maxInstant < now + c.keepAlive ∧ ∃ watched, r.watch id = .ok watched := by
  refine ⟨fun a n hn => fromEnvironment_insert h a hn, amount_lt h, c.keepAlive_pos,
    Registry.exists_new_iff, fun r₀ os hnew hd free hf => ?_, fun r now => ?_,
    fun r id now => Live.Channel.openJob_eq_periodTooLong_iff⟩
  · exact Nat.le_trans (Registry.freeSlots_le hnew hd hf) (Registry.exists_new_iff.mp ⟨r₀, hnew⟩)
  · simp only [Live.Channel.openAll_eq_error_iff, exists_eq_left]

/-- Thirty seconds and four slots: a registry is made, and channels are opened for more than a century. -/
theorem ServerConfig.runs_within_limits_of_thirty_seconds :
    let env : Environment :=
      (Dict.empty.insert "LIVE_KEEPALIVE_SECS" "30").insert "JOB_MAX_CONCURRENT" "4"
    ∃ c, ServerConfig.fromEnvironment env "/" = .ok c ∧ c.keepAlive = 30 ∧
      (∃ r, Registry.new c.jobs = some r) ∧
      ∀ r now, now < Nat.pow 2 32 → ¬ ∃ e, Live.Channel.openAll r c.keepAlive now = .error e := by
  intro env
  obtain ⟨c, h, hperiod, hslots⟩ : ∃ c, ServerConfig.fromEnvironment env "/" = .ok c ∧
      c.keepAlive = 30 ∧ c.jobs.maxConcurrent = 4 := ⟨_, rfl, rfl, rfl⟩
  obtain ⟨-, -, -, hnew, -, hall, -⟩ := ServerConfig.runs_within_limits h
  refine ⟨c, h, hperiod, hnew.mpr ?_, fun r now hnow hopen => ?_⟩
  · rw [hslots]
    decide
  · have hlate := (hall r now).mp hopen
    rw [hperiod] at hlate
    have hsoon : Nat.pow 2 32 + 30 ≤ Live.Timer.maxInstant := by decide
    omega

/-- A period that the clock cannot reach is accepted, and so are more slots than can be counted. -/
theorem ServerConfig.accepted_beyond_limits :
    (∃ c r, ServerConfig.fromEnvironment
        (Dict.empty.insert "LIVE_KEEPALIVE_SECS" "18446744073709551615" : Environment) "/" = .ok c ∧
      Registry.new c.jobs = some r ∧
      Live.Channel.openAll r c.keepAlive 0 = .error .periodTooLong) ∧
      ∃ c, ServerConfig.fromEnvironment
          (Dict.empty.insert "JOB_MAX_CONCURRENT" "2305843009213693952" : Environment) "/" = .ok c ∧
        Registry.new c.jobs = none :=
  ⟨⟨_, _, rfl, rfl, rfl⟩, _, rfl, rfl⟩

end JobConsole
