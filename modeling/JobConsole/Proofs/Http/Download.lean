import JobConsole.Proofs.Artifact.Places
import JobConsole.Proofs.Http.ReadBack

/-! # Downloading what is listed

The list of the artifacts of a job is announced, which changes nothing that they are found by. So each
of them is found again under its address, with the file behind it. It is sent unless its name holds a
character that cannot stand in a header: then the answer is a failure.
-/

namespace JobConsole

/-! ## Announcing -/

namespace Resolved

theorem placeOf_announced (j : Job) (artifacts : List Artifact) {key : String}
    (hk : key ≠ Metadata.artifactsKey) :
    placeOf (Registry.announced j artifacts) key = placeOf j key := by
  have hm : (Registry.announced j artifacts).metadata =
      j.metadata.insert Metadata.artifactsKey (.array (artifacts.map Artifact.toJson)) := rfl
  have hcwd : (Registry.announced j artifacts).cwd = j.cwd := rfl
  rw [placeOf, placeOf, hcwd, Metadata.text?, Metadata.text?, hm, Dict.get?_insert, if_neg hk]

theorem resolve_announced (fs : FileSystem) (j : Job) (artifacts : List Artifact) :
    resolve fs (Registry.announced j artifacts) = resolve fs j := by
  refine resolve_congr rfl fun key hk => ?_
  rw [reached, reached, placeOf_announced]
  rintro rfl
  exact absurd hk (by decide)

end Resolved

namespace Registry

variable {r : Registry} {j : Job}

/-- Listing the artifacts of a finished job leaves a job with the same artifacts. -/
theorem resolveArtifacts_of_terminal (fs : FileSystem) (now : Timestamp)
    (hg : r.get? j.id = some j) (ht : j.status.isTerminal = true) :
    ∃ r' j', r.resolveArtifacts fs j.id true now =
        .ok ((Resolved.resolve fs j).map (·.artifact), r') ∧
      r'.get? j.id = some j' ∧ j'.status.isTerminal = true ∧
      Resolved.resolve fs j' = Resolved.resolve fs j := by
  have hfind : r.findArtifacts fs j.id = .ok ((Resolved.resolve fs j).map (·.artifact)) := by
    simp only [findArtifacts, hg, if_pos ht]
  simp only [resolveArtifacts, hfind]
  split
  · simp only [announce, hg]
    exact ⟨_, _, rfl, get?_setJob_self hg rfl, ht, Resolved.resolve_announced fs j _⟩
  · exact ⟨r, j, rfl, hg, ht, rfl⟩

end Registry

namespace Http

variable {c : Console} {a : Arrival} {r : Request} {j : Job} {e : Resolved} {name : String}

/-! ## Names in headers -/

theorem isHeaderText_append (s t : String) :
    isHeaderText (s ++ t) = (isHeaderText s && isHeaderText t) := by
  rw [isHeaderText, String.toList_append, List.all_append, isHeaderText, isHeaderText]

theorem isHeaderText_disposition (name : String) :
    isHeaderText (Api.disposition name) = isHeaderText name := by
  let quoteless := String.ofList (name.toList.filter (· ≠ '"'))
  have hquotes : isHeaderText quoteless = isHeaderText name := by
    rw [isHeaderText, String.toList_ofList, List.all_filter, isHeaderText]
    refine List.all_congr rfl fun c => ?_
    by_cases hc : c = '"'
    · subst hc
      rfl
    · simp [hc]
  have hfront : isHeaderText "attachment; filename=\"" = true := by decide +kernel
  have hback : isHeaderText "\"" = true := by decide +kernel
  calc isHeaderText (Api.disposition name)
      = (isHeaderText ("attachment; filename=\"" ++ quoteless) && isHeaderText "\"") :=
        isHeaderText_append _ _
    _ = (isHeaderText "attachment; filename=\"" && isHeaderText quoteless && isHeaderText "\"") :=
        congrArg (· && _) (isHeaderText_append _ _)
    _ = isHeaderText name := by rw [hquotes, hfront, hback, Bool.true_and, Bool.and_true]

/-! ## Answers -/

namespace Server

theorem respond_list (hg : c.registry.get? j.id = some j) (hid : checkId j.id = .ok ())
    (ht : j.status.isTerminal = true) (hm : r.method = .get)
    (htarget : r.target = Route.artifactsOf j.id) :
    let listing := respond c a r
    listing.1.status = 200 ∧
      listing.1.content = .json (.object [("data",
        .array ((Resolved.resolve c.files j).map (·.artifact.toJson)))]) ∧
      listing.2.files = c.files ∧ ∃ j', listing.2.registry.get? j.id = some j' ∧
        j'.status.isTerminal = true ∧ Resolved.resolve c.files j' = Resolved.resolve c.files j := by
  obtain ⟨hne, -, -, -, htoken⟩ := checkId_eq_ok_iff.mp hid
  have ho : Route.ofTarget r.target = some (.artifacts j.id) := by
    rw [htarget, Route.ofTarget_artifactsOf htoken hne]
  have hd : (Route.artifacts j.id).decode? = some (.artifacts j.id) := by
    rw [Route.decode?, Percent.decode?_of_isToken htoken]
    rfl
  obtain ⟨reg, j', hres, hg', ht', hsame⟩ :=
    Registry.resolveArtifacts_of_terminal c.files a.now hg ht
  have hroute : Api.route c a r = Api.listArtifacts c a j.id := by
    simp [Api.route, ho, hd, hm, Route.methods, Api.handle]
  simp only [respond, hm, reduceCtorEq, ↓reduceIte, hroute, Api.listArtifacts, hres]
  refine ⟨rfl, ?_, trivial, j', hg', ht', hsame⟩
  rw [List.map_map]
  rfl

theorem respond_download (hg : c.registry.get? j.id = some j) (hid : checkId j.id = .ok ())
    (ht : j.status.isTerminal = true) (he : e ∈ Resolved.resolve c.files j) (hm : r.method = .get)
    (htarget : r.target = e.artifact.url) :
    ∃ octets, c.files.readFile e.path = some octets ∧ octets.length = e.artifact.size ∧
      respond c a r =
        (((Api.fileResponse e.artifact octets).addHeaders [(requestIdName, requestId a r)]).addHeaders
          (originHeaders c r), c) := by
  obtain ⟨hne, -, -, -, htoken⟩ := checkId_eq_ok_iff.mp hid
  have hb := Resolved.backed_of_resolve he
  obtain ⟨octets, hread, hlen⟩ := Option.map_eq_some_iff.mp hb.size_eq
  have ho : Route.ofTarget r.target = some (.artifact j.id e.artifact.id) := by
    rw [htarget, hb.addressed, Route.ofTarget_urlOf htoken hne hb.isToken hb.id_ne_empty]
  have hd : (Route.artifact j.id e.artifact.id).decode? = some (.artifact j.id e.artifact.id) := by
    rw [Route.decode?, Percent.decode?_of_isToken htoken, Percent.decode?_of_isToken hb.isToken]
    rfl
  have hlocate : c.registry.locateArtifact c.files j.id e.artifact.id = .ok e := by
    have hl : Resolved.locate c.files j e.artifact.id = some e :=
      Resolved.locate_eq_some_iff.mpr ⟨he, rfl⟩
    simp only [Registry.locateArtifact, hg, ht, ↓reduceIte, hl]
  have hroute : Api.route c a r = (Api.fileResponse e.artifact octets, c) := by
    simp [Api.route, ho, hd, hm, Route.methods, Api.handle, Api.download, hlocate, hread]
  refine ⟨octets, hread, hlen, ?_⟩
  simp only [respond, hm, reduceCtorEq, ↓reduceIte, hroute]

end Server

end Http

namespace Console

open Http (Arrival Request Route Server.respond isHeaderText)
open Resolved (resolve)

variable {cfg : ServerConfig} {fs : FileSystem} {c₀ : Console} {xs : List Act} {j : Job}

/-- The list of the artifacts of a finished job holds what its resolution has found, and each file that
is listed is sent from the address it is listed under, just when its name can stand in a header. -/
theorem listed_artifacts_sent (h : start cfg fs = .ok c₀)
    (hf : ∀ x ∈ xs, ∀ id ∈ x.fresh, isUuid id = true) (hj : j ∈ (c₀.run xs).registry.jobs)
    (ht : j.status.isTerminal = true) {a : Arrival} {r : Request} (hm : r.method = .get)
    (htarget : r.target = Route.artifactsOf j.id) :
    let c := c₀.run xs
    let listing := Server.respond c a r
    listing.1.status = 200 ∧
    listing.1.content =
      .json (.object [("data", .array ((resolve c.files j).map (·.artifact.toJson)))]) ∧
    listing.2.files = c.files ∧
    ∀ e ∈ resolve c.files j, ∃ octets, c.files.readFile e.path = some octets ∧
      octets.length = e.artifact.size ∧
      ∀ (a' : Arrival) (r' : Request), r'.method = .get → r'.target = e.artifact.url →
        let answer := Server.respond listing.2 a' r'
        answer.2 = listing.2 ∧
        ((answer.1.status = 200 ∧ answer.1.content = .file octets ∧
            answer.1.header? "content-length" = some (toString e.artifact.size)) ↔
          isHeaderText e.artifact.name = true) ∧
        (isHeaderText e.artifact.name = false → answer.1.status = 500) := by
  intro c listing
  have hid := checkId_of_mem_jobs h hf hj
  obtain ⟨hs, hc, hfiles, j', hg', ht', hsame⟩ :=
    Http.Server.respond_list (a := a) ((paired_run h xs).get?_of_mem hj) hid ht hm htarget
  have hj' : j'.id = j.id := Registry.id_of_get? hg'
  rw [← hj'] at hg'
  refine ⟨hs, hc, hfiles, fun e he => ?_⟩
  have he' : e ∈ resolve listing.2.files j' := by
    rw [hfiles, hsame]
    exact he
  have hanswer (a' : Arrival) (r' : Request) (hm' : r'.method = .get)
      (hr' : r'.target = e.artifact.url) :=
    Http.Server.respond_download (a := a') hg' (hj' ▸ hid) ht' he' hm' hr'
  obtain ⟨octets, hread, hlen, -⟩ := hanswer a (inquiry e.artifact.url) rfl rfl
  rw [hfiles] at hread
  refine ⟨octets, hread, hlen, fun a' r' hm' hr' => ?_⟩
  obtain ⟨octets', hread', -, heq⟩ := hanswer a' r' hm' hr'
  rw [hfiles] at hread'
  obtain rfl := Option.some.inj (hread'.symm.trans hread)
  intro answer
  have hanswer : answer = _ := heq
  rw [hanswer, Http.Api.fileResponse, Http.isHeaderText_disposition]
  cases hname : isHeaderText e.artifact.name with
  | true => exact ⟨rfl, ⟨fun _ => rfl, fun _ => ⟨rfl, rfl, rfl⟩⟩, by simp⟩
  | false =>
    refine ⟨rfl, ⟨fun h => ?_, by simp⟩, fun _ => rfl⟩
    cases h.1

def archived (a : Arrival) : List Act :=
  [ .request a (submission
      "\x7b\"command\":[\"true\"],\"id\":\"j\",\"metadata\":\x7b\"archiveDir\":\"archive\"\x7d\x7d"),
    .operate ⟨default, .change "j" (.start none)⟩,
    .operate ⟨default, .change "j" (.finish (some 0) none none)⟩ ]

/-- A file with a plain name is listed and sent. -/
theorem listed_artifacts_sent_of_plain_name :
    let fs : FileSystem := ⟨[(["archive"], .directory), (["archive", "a.csv"], .file [120])], []⟩
    let a : Arrival := ⟨default, "67e55044-10b1-426f-9247-bb680e5fe0c8", ""⟩
    ∃ c₀, start ⟨"", 0, [], 0, 0, 15, .json, ⟨4, 0, 8, "/", "", ""⟩⟩ fs = .ok c₀ ∧
      isUuid a.jobId = true ∧
      let listing := Server.respond (c₀.run (archived a)) a (inquiry "/api/v1/jobs/j/artifacts")
      listing.1.status = 200 ∧
      let get := inquiry "/api/v1/jobs/j/artifacts/archive-a.csv"
      (Server.respond listing.2 a get).1.status = 200 ∧
      (Server.respond listing.2 a get).1.content = .file [120] := by
  intro fs a
  obtain ⟨c₀, h⟩ : ∃ c₀, start ⟨"", 0, [], 0, 0, 15, .json, ⟨4, 0, 8, "/", "", ""⟩⟩ fs = .ok c₀ :=
    ⟨_, rfl⟩
  have ha : isUuid a.jobId = true := by decide
  have hf : ∀ x ∈ archived a, ∀ id ∈ x.fresh, isUuid id = true := by
    simpa [archived, Act.fresh, Operation.fresh] using ha
  have hjobs : (c₀.run (archived a)).registry.jobs.any (fun j =>
      j.id = "j" && j.status.isTerminal && (resolve (c₀.run (archived a)).files j).any fun e =>
        e.artifact.url = "/api/v1/jobs/j/artifacts/archive-a.csv" &&
          isHeaderText e.artifact.name &&
          (c₀.run (archived a)).files.readFile e.path = some [120]) = true := by
    cases h
    decide +kernel
  obtain ⟨j, hj, hall⟩ := List.any_eq_true.mp hjobs
  simp only [Bool.and_eq_true, decide_eq_true_eq, List.any_eq_true] at hall
  obtain ⟨⟨hid, ht⟩, e, he, ⟨hurl, hname⟩, hread⟩ := hall
  have htarget : (inquiry "/api/v1/jobs/j/artifacts").target = Route.artifactsOf j.id := by
    rw [hid]
    rfl
  obtain ⟨hs, -, -, hsent⟩ := listed_artifacts_sent h hf hj ht (a := a) rfl htarget
  obtain ⟨octets, hread', -, hanswer⟩ := hsent e he
  obtain rfl := Option.some.inj (hread.symm.trans hread')
  obtain ⟨-, hiff, -⟩ := hanswer a (inquiry "/api/v1/jobs/j/artifacts/archive-a.csv") rfl hurl.symm
  obtain ⟨h200, hcontent, -⟩ := hiff.mpr hname
  exact ⟨c₀, h, ha, hs, h200, hcontent⟩

/-- A file with a line break in its name is listed, and answered as a failure where it is listed. -/
theorem listed_artifact_not_sent_of_line_break :
    let fs : FileSystem := ⟨[(["archive"], .directory), (["archive", "a\nb.csv"], .file [120])], []⟩
    let a : Arrival := ⟨default, "67e55044-10b1-426f-9247-bb680e5fe0c8", ""⟩
    ∃ c₀, start ⟨"", 0, [], 0, 0, 15, .json, ⟨4, 0, 8, "/", "", ""⟩⟩ fs = .ok c₀ ∧
      isUuid a.jobId = true ∧
      (c₀.run (archived a)).registry.jobs.any (fun j => j.id = "j" && j.status.isTerminal &&
        (resolve (c₀.run (archived a)).files j).any fun e =>
          e.artifact.url = "/api/v1/jobs/j/artifacts/archive-a_b.csv") = true ∧
      let listing := Server.respond (c₀.run (archived a)) a (inquiry "/api/v1/jobs/j/artifacts")
      listing.1.status = 200 ∧
      (Server.respond listing.2 a (inquiry "/api/v1/jobs/j/artifacts/archive-a_b.csv")).1.status =
        500 := by
  intro fs a
  refine ⟨_, rfl, by decide, ?_, ?_, ?_⟩
  all_goals decide +kernel

end Console

end JobConsole
