import JobConsole.Proofs.Http.Address
import JobConsole.Proofs.Http.History

/-! # Reading a job back

A job stays where it was entered, under an id that stands for itself in a path. So whoever has
submitted it can ask for it under its address, and gets the job as it is now. The exceptions are the ids
that are also fixed names below the path of all jobs: submissions may ask for them, and their addresses
lead elsewhere.
-/

namespace JobConsole

/-! ## Answers about jobs -/

theorem Failure.status_ne_created (f : Failure) : f.status ≠ 201 := by
  cases f <;> simp [status]

namespace Http

variable {a : Arrival} {c : Console} {r : Request} {j : Job}

namespace Api

theorem ne_created_of_decodeBody {α : Type} {reader : Json.Reader α} {status : Nat}
    (h : decodeBody reader r = .error status) : status ≠ 201 := by
  unfold decodeBody at h
  split at h
  · split at h
    · cases h
      decide
    · split at h <;> cases h <;> decide
  · cases h
    decide

/-- Only a job that has been entered is answered so. -/
theorem submit_of_created {command : List String} {options : JobOptions}
    (h : (submit c a command options).1.status = 201) :
    ∃ j, (submit c a command options).1 = jobData 201 j ∧
      j ∈ (submit c a command options).2.registry.jobs := by
  unfold submit at h ⊢
  split
  next e he =>
    rw [he] at h
    exact absurd h e.failure.status_ne_created
  next j r hr => exact ⟨j, rfl, Registry.mem_jobs_of_submit hr⟩

end Api

namespace Server

theorem respond_post_jobs (hm : r.method = .post) (ht : r.target = "/api/v1/jobs")
    (hs : (respond c a r).1.status = 201) :
    ∃ j, (respond c a r).1.content = .json (.object [("data", j.toJson)]) ∧
      j ∈ (respond c a r).2.registry.jobs := by
  have hroute : Api.route c a r = Api.handle c a r .jobs := by
    have ho : Route.ofTarget r.target = some .jobs := by
      rw [ht]
      decide
    simp [Api.route, ho, Route.decode?, Route.methods, hm]
  simp only [respond, hm, reduceCtorEq, ↓reduceIte, hroute] at hs ⊢
  simp only [Api.handle, hm, ↓reduceIte, Api.withBody] at hs ⊢
  cases hb : Api.decodeBody SubmitRequest.reader r with
  | error status =>
    simp only [hb] at hs
    exact absurd hs (Api.ne_created_of_decodeBody hb)
  | ok s =>
    simp only [hb] at hs ⊢
    obtain ⟨j, hj, hmem⟩ := Api.submit_of_created hs
    exact ⟨j, by rw [hj]; rfl, hmem⟩

theorem respond_get_job (hp : c.registry.Paired) (hj : j ∈ c.registry.jobs)
    (hid : checkId j.id = .ok ()) (hn : j.id ∉ Route.fixedNames) (hm : r.method = .get)
    (ht : r.target = Route.addressOf j.id) :
    (respond c a r).1.status = 200 ∧
      (respond c a r).1.content = .json (.object [("data", j.toJson)]) ∧ (respond c a r).2 = c := by
  obtain ⟨hne, -, -, -, htoken⟩ := checkId_eq_ok_iff.mp hid
  have ho : Route.ofTarget r.target = some (.job j.id) := by
    rw [ht, Route.ofTarget_addressOf htoken, Route.ofJobPieces_eq_job_iff hne]
    exact hn
  have hd : (Route.job j.id).decode? = some (.job j.id) := by
    rw [Route.decode?, Percent.decode?_of_isToken htoken]
    rfl
  have hg : Api.handle c a r (.job j.id) = (Api.jobData 200 j, c) := by
    rw [Api.handle, Api.getJob, hp.get?_of_mem hj]
  have hr : Api.route c a r = (Api.jobData 200 j, c) := by
    simp [Api.route, ho, hd, hg, hm, Route.methods]
  simp only [respond, hm, reduceCtorEq, ↓reduceIte, hr]
  exact ⟨rfl, rfl, trivial⟩

end Server

end Http

namespace Console

open Http (Arrival Request Route Server.respond)

variable {cfg : ServerConfig} {fs : FileSystem} {c₀ : Console} {xs : List Act} {j : Job}

/-! ## Consoles that have been started -/

theorem registry_new_of_start (h : start cfg fs = .ok c₀) :
    Registry.new cfg.jobs = some c₀.registry := by
  unfold start at h
  split at h
  · cases h
  next r hr =>
    split at h
    · cases h
    · split at h
      · cases h
      · exact Except.ok.inj h ▸ hr

theorem wellFormed_of_start (h : start cfg fs = .ok c₀) : c₀.registry.bus.WellFormed :=
  Registry.wellFormed_bus (registry_new_of_start h) []

theorem leads_start (h : start cfg fs = .ok c₀) (xs : List Act) :
    Registry.Leads (xs.flatMap Act.fresh) c₀.registry (c₀.run xs).registry :=
  leads_run (wellFormed_of_start h) fun x hx _ hid => List.mem_flatMap.mpr ⟨x, hx, hid⟩

theorem paired_run (h : start cfg fs = .ok c₀) (xs : List Act) :
    (c₀.run xs).registry.Paired :=
  (leads_start h xs).paired (Registry.paired_new (registry_new_of_start h))

theorem mem_jobIds_run {id : String} (h : start cfg fs = .ok c₀)
    (hid : id ∈ (c₀.run xs).registry.jobIds) (ys : List Act) :
    id ∈ (c₀.run (xs ++ ys)).registry.jobIds := by
  have hb := (leads_start h xs).wellFormed (wellFormed_of_start h)
  have hl : Registry.Leads (ys.flatMap Act.fresh) _ ((c₀.run xs).run ys).registry :=
    leads_run hb fun x hx _ hid => List.mem_flatMap.mpr ⟨x, hx, hid⟩
  obtain ⟨added, he, -⟩ := hl.jobIds_eq
  rw [run_append, he]
  exact List.mem_append_left added hid

theorem checkId_of_mem_jobs (h : start cfg fs = .ok c₀)
    (hf : ∀ x ∈ xs, ∀ id ∈ x.fresh, isUuid id = true) (hj : j ∈ (c₀.run xs).registry.jobs) :
    checkId j.id = .ok () := by
  obtain ⟨added, he, ha⟩ := (leads_start h xs).jobIds_eq
  have hnone : c₀.registry.jobIds = [] := by
    rw [Registry.jobIds, Registry.jobs_new (registry_new_of_start h), List.map_nil]
  rw [hnone, List.nil_append] at he
  rcases ha j.id (he ▸ List.mem_map_of_mem hj) with hc | hc
  · exact hc
  · obtain ⟨x, hx, hid⟩ := List.mem_flatMap.mp hc
    exact checkId_of_isUuid (hf x hx _ hid)

def submission (json : String) : Request :=
  ⟨.post, "/api/v1/jobs", [("content-type", "application/json")], Text.Utf8.encode json⟩

def inquiry (target : String) : Request := ⟨.get, target, [], []⟩

/-- Whoever has submitted a job finds it in the console from then on, and every job is read back under
its address, just when its id is no fixed name. -/
theorem job_read_back (h : start cfg fs = .ok c₀)
    (hf : ∀ x ∈ xs, ∀ id ∈ x.fresh, isUuid id = true) :
    (∀ ys zs a r, xs = ys ++ .request a r :: zs → r.method = .post → r.target = "/api/v1/jobs" →
      (Server.respond (c₀.run ys) a r).1.status = 201 →
        ∃ j : Job,
          (Server.respond (c₀.run ys) a r).1.content = .json (.object [("data", j.toJson)]) ∧
          ∃ k ∈ (c₀.run xs).registry.jobs, k.id = j.id) ∧
    ∀ j ∈ (c₀.run xs).registry.jobs, ∀ (a : Arrival) (r : Request),
      r.method = .get → r.target = Route.addressOf j.id →
        ((Route.ofTarget r.target = some (.job j.id) ∧
            (Server.respond (c₀.run xs) a r).1.status = 200 ∧
            (Server.respond (c₀.run xs) a r).1.content = .json (.object [("data", j.toJson)])) ↔
          j.id ∉ Route.fixedNames) := by
  constructor
  · rintro ys zs a r rfl hm ht hs
    obtain ⟨j, hj, hmem⟩ := Http.Server.respond_post_jobs hm ht hs
    have hentered : j.id ∈ (c₀.run (ys ++ [.request a r])).registry.jobIds := by
      rw [run_append]
      exact List.mem_map_of_mem hmem
    have hid := mem_jobIds_run h hentered zs
    rw [List.append_assoc, List.singleton_append] at hid
    exact ⟨j, hj, List.mem_map.mp hid⟩
  · intro j hj a r hm ht
    have hid := checkId_of_mem_jobs h hf hj
    obtain ⟨hne, -, -, -, htoken⟩ := checkId_eq_ok_iff.mp hid
    constructor
    · rintro ⟨ho, -⟩
      rwa [ht, Route.ofTarget_addressOf htoken, Route.ofJobPieces_eq_job_iff hne] at ho
    · intro hn
      obtain ⟨hs, hc, -⟩ :=
        Http.Server.respond_get_job (a := a) (paired_run h xs) hj hid hn hm ht
      refine ⟨?_, hs, hc⟩
      rwa [ht, Route.ofTarget_addressOf htoken, Route.ofJobPieces_eq_job_iff hne]

/-- A job that has been given an id of its own is read back. -/
theorem job_read_back_of_own_id :
    let post := submission "\x7b\"command\":[\"true\"],\"id\":\"nightly-7\"\x7d"
    let a : Arrival := ⟨default, "67e55044-10b1-426f-9247-bb680e5fe0c8", ""⟩
    let get := inquiry "/api/v1/jobs/nightly-7"
    ∃ c₀, start ⟨"", 0, [], 0, 0, 15, .json, ⟨4, 0, 8, "/", "", ""⟩⟩ ⟨[], []⟩ = .ok c₀ ∧
      isUuid a.jobId = true ∧ (Server.respond c₀ a post).1.status = 201 ∧
      (c₀.run [.request a post]).registry.jobs.map Job.id = ["nightly-7"] ∧
      (Server.respond (c₀.run [.request a post]) a get).1.status = 200 ∧
      ∃ k ∈ (c₀.run [.request a post]).registry.jobs,
        (Server.respond (c₀.run [.request a post]) a get).1.content =
          .json (.object [("data", k.toJson)]) := by
  intro post a get
  obtain ⟨c₀, h⟩ : ∃ c₀, start ⟨"", 0, [], 0, 0, 15, .json, ⟨4, 0, 8, "/", "", ""⟩⟩ ⟨[], []⟩ =
    .ok c₀ := ⟨_, rfl⟩
  have ha : isUuid a.jobId = true := by decide
  have hf : ∀ x ∈ [Act.request a post], ∀ id ∈ x.fresh, isUuid id = true := by
    simpa [Act.fresh] using ha
  have hs : (Server.respond c₀ a post).1.status = 201 := by
    cases h
    decide +kernel
  have hids : (c₀.run [.request a post]).registry.jobs.map Job.id = ["nightly-7"] := by
    cases h
    decide +kernel
  obtain ⟨hin, hback⟩ := job_read_back h hf
  have hrun : c₀.run [] = c₀ := rfl
  obtain ⟨j, -, k, hk, -⟩ := hin [] [] a post rfl rfl rfl (hrun.symm ▸ hs)
  have hid : k.id = "nightly-7" :=
    List.mem_singleton.mp (hids ▸ List.mem_map_of_mem hk)
  have hn : k.id ∉ Route.fixedNames := by
    rw [hid]
    decide
  have ht : get.target = Route.addressOf k.id := by
    rw [hid]
    rfl
  obtain ⟨-, h200, hc⟩ := (hback k hk a get rfl ht).mpr hn
  exact ⟨c₀, h, ha, hs, hids, h200, k, hk, hc⟩

/-- An id may be asked for that is also a fixed name, and then the job is not found under it. -/
theorem job_not_read_back_of_fixed_name :
    let post := submission "\x7b\"command\":[\"true\"],\"id\":\"import\"\x7d"
    let a : Arrival := ⟨default, "67e55044-10b1-426f-9247-bb680e5fe0c8", ""⟩
    let get := inquiry "/api/v1/jobs/import"
    checkId "import" = .ok () ∧
      ∃ c₀, start ⟨"", 0, [], 0, 0, 15, .json, ⟨4, 0, 8, "/", "", ""⟩⟩ ⟨[], []⟩ = .ok c₀ ∧
        (Server.respond c₀ a post).1.status = 201 ∧
        (c₀.run [.request a post]).registry.jobs.map Job.id = ["import"] ∧
        Route.ofTarget get.target = some .importing ∧
        (Server.respond (c₀.run [.request a post]) a get).1.status = 405 := by
  intro post a get
  refine ⟨by decide, _, rfl, ?_, ?_, ?_, ?_⟩
  all_goals decide +kernel

end Console

end JobConsole
