import JobConsole.Proofs.Registry.Depot
import JobConsole.Proofs.Registry.Replay

/-! # Announcing

Artifacts are announced after their job is said to be finished, whoever searches for them and
whatever comes between a search and its announcement. What is announced is recorded with the job in
the same step, and stays there until it is announced anew or a client writes the key. That is so
for requests that are answered at one go as well (`Console.exists_depot_run`).
-/

namespace JobConsole

def Event.artifacts? (e : Event) : Option (List Artifact) :=
  match e.payload with
  | .artifactReady artifacts => some artifacts
  | _ => none

/-- The list that was announced last, or the given one if none was. -/
def lastAnnounced (artifacts : List Artifact) (es : List Event) : List Artifact :=
  (es.filterMap Event.artifacts?).getLastD artifacts

def Artifact.listed (artifacts : List Artifact) : Json := .array (artifacts.map Artifact.toJson)

theorem Event.artifacts?_eq_some_iff {e : Event} {artifacts : List Artifact} :
    e.artifacts? = some artifacts ↔ e.payload = .artifactReady artifacts := by
  unfold artifacts?
  cases e.payload <;> simp

theorem lastAnnounced_cons (artifacts : List Artifact) (e : Event) (es : List Event) :
    lastAnnounced artifacts (e :: es) = lastAnnounced (e.artifacts?.getD artifacts) es := by
  unfold lastAnnounced
  cases he : e.artifacts? with
  | none => rw [List.filterMap_cons_none he, Option.getD_none]
  | some announced => rw [List.filterMap_cons_some he, List.getLastD_cons, Option.getD_some]

namespace Job

theorem listed_replays {j : Job} {artifacts : List Artifact}
    (h : j.metadata.get? Metadata.artifactsKey = some (Artifact.listed artifacts))
    (es : List Event) :
    (j.replays es).metadata.get? Metadata.artifactsKey =
      some (Artifact.listed (lastAnnounced artifacts es)) := by
  induction es generalizing j artifacts with
  | nil => exact h
  | cons e es ih =>
    rw [lastAnnounced_cons]
    refine ih (j := j.replay e) ?_
    unfold replay Event.artifacts?
    cases e.payload with
    | artifactReady announced => exact (Dict.get?_insert ..).trans (if_pos rfl)
    | _ => exact h

end Job

namespace Registry

variable {r r' : Registry} {id : String} {j : Job} {now : Timestamp} {o : Operation}
  {os : List Timed} {as : List Bus.Act} {e : Event} {artifacts : List Artifact}

theorem Effect.eq_announce (h : Effect r now o r' as) (he : e ∈ as.flatMap Bus.Act.events)
    (hp : e.payload = .artifactReady artifacts) :
    o = .announce e.jobId artifacts ∧ (r.get? e.jobId).isSome := by
  have of_changing {i : String} {c : Option Change}
      (he : e ∈ (publishing (c.bind (r.announcement i · now))).flatMap Bus.Act.events) : False := by
    obtain ⟨j, c', j', hc⟩ := changed_of_mem_publishing he
    rw [hp] at hc
    cases hc
  cases h with
  | @announced i announced k hk =>
    obtain rfl := List.mem_singleton.mp he
    obtain rfl := Payload.artifactReady.inj hp
    exact ⟨rfl, Option.isSome_of_mem hk⟩
  | told _ hk =>
    obtain rfl := List.mem_singleton.mp he
    obtain rfl := hp
    rcases hk with hk | hk <;> cases hk
  | submitted =>
    obtain rfl := List.mem_singleton.mp he
    cases hp
  | @changed i c => exact (of_changing (c := some c) he).elim
  | moved => exact (of_changing he).elim
  | _ => cases he

end Registry

namespace Depot

variable {c : JobsConfig} {r₀ : Registry} {d : Depot} {x : Act} {id : String} {e : Event}
  {artifacts : List Artifact}

theorem op?_of_artifactReady (he : e ∈ d.published id [x])
    (hp : e.payload = .artifactReady artifacts) :
    ∃ now, d.op? x = some ⟨now, .announce id artifacts⟩ ∧ (d.registry.get? id).isSome := by
  rw [published_eq, history, history, List.append_nil] at he
  cases ho : d.op? x with
  | none =>
    rw [ho] at he
    cases he
  | some o =>
    rw [ho, Option.toList_some, Registry.published_cons, Registry.published_nil,
      List.append_nil] at he
    obtain ⟨hm, hid⟩ := List.mem_filter.mp he
    obtain rfl := of_decide_eq_true hid
    obtain ⟨hop, hs⟩ := (Registry.effect d.registry o.now o.op).eq_announce hm hp
    exact ⟨o.now, congrArg some (by rw [← hop]), hs⟩

/-- What is announced is recorded, and stays there until the key is written. -/
theorem listed_of_announce {now : Timestamp} (ho : d.op? x = some ⟨now, .announce id artifacts⟩)
    (hs : (d.registry.get? id).isSome) (later : List Act)
    (hk : Metadata.artifactsKey ∉ mergedKeys id ((d.act x).history later)) :
    ∃ k, ((d.act x).run later).registry.get? id = some k ∧
      k.metadata.get? Metadata.artifactsKey =
        some (Artifact.listed (lastAnnounced artifacts ((d.act x).published id later))) := by
  obtain ⟨j, hj⟩ := Option.isSome_iff_exists.mp hs
  have hact : (d.act x).registry = d.registry.apply now (.announce id artifacts) := by
    rw [registry_act, ho]
    rfl
  have hj' : (d.act x).registry.get? id = some (Registry.announced j artifacts) := by
    have hid : j.id = id := Registry.id_of_get? hj
    rw [hact, Registry.apply, Registry.announce, hj]
    exact Registry.get?_setJob_self hj hid
  obtain ⟨k, hk', ha⟩ := Registry.replay_published hj' ((d.act x).history later)
  refine ⟨k, (congrArg (·.get? id) (registry_run ..)).trans hk', ?_⟩
  rw [← ha.metadata_eq _ hk]
  exact Job.listed_replays ((Dict.get?_insert ..).trans (if_pos rfl)) _

theorem act_ask_of_running {j : Job} (hj : d.registry.get? id = some j)
    (ht : j.status.isTerminal = false) (announced : Bool) (files : FileSystem) :
    d.act (.ask id announced files) = d := by
  have hsought : d.sought id announced files = [] := by
    simp [sought, Registry.findArtifacts_of_running hj ht files]
  simp only [act, hsought, List.append_nil]
  rfl

/-- Artifacts are said to be ready after their job is finished, and there are some. From that moment
the record lists what was announced last, until a client writes the key; before the end of the job
nothing is found, nothing is said and nothing changes. -/
theorem announced_truthfully (h : Registry.new c = some r₀) (past : List Act) :
    let d := (start r₀).run past
    (∀ x id e artifacts, x.isUnsought = false → e ∈ d.published id [x] →
      e.payload = .artifactReady artifacts →
      (∃ f ∈ (start r₀).published id past, f.isFinished = true) ∧ artifacts ≠ [] ∧
      ∀ later, Metadata.artifactsKey ∉ mergedKeys id ((d.act x).history later) →
        ∃ k, ((d.act x).run later).registry.get? id = some k ∧
          k.metadata.get? Metadata.artifactsKey =
            some (Artifact.listed (lastAnnounced artifacts ((d.act x).published id later)))) ∧
    ∀ id j, d.registry.get? id = some j → j.status.isTerminal = false →
      ∀ announced files now, d.act (.ask id announced files) = d ∧
        d.registry.resolveArtifacts files id announced now = .ok ([], d.registry) := by
  intro d
  constructor
  · intro x id e artifacts hx he hready
    obtain ⟨now, ho, hs⟩ := op?_of_artifactReady he hready
    obtain ⟨hne, j, hj, ht⟩ := underway_run h past _ (mem_underway_of_announce hx ho)
    exact ⟨(rests_of_ended h past [] hj ht).1, hne, listed_of_announce ho hs⟩
  · intro id j hj ht announced files now
    refine ⟨act_ask_of_running hj ht announced files, ?_⟩
    simp [Registry.resolveArtifacts, Registry.findArtifacts_of_running hj ht files]

/-- A request finds a file before the completion handler does and announces it later: the record
lists what the request has found. -/
theorem announced_truthfully_of_overtaken_search :
    let a (o : Operation) : Act := .operate ⟨default, o⟩
    let output := Dict.empty.insert Metadata.outputPathKey (.text "out.csv")
    let options : JobOptions := { JobOptions.none with metadata := output }
    let past : List Act :=
      [.attach, a (.submit ["true"] options "j"), a (.step "j" (.launch (.error "not found"))),
        a (.step "j" .report), a (.step "j" .fail),
        .ask "j" true ⟨[(["out.csv"], .file [120])], []⟩,
        .take, .take, .take, .take, .look ⟨[(["out.csv"], .file [120, 121])], []⟩]
    let later : List Act := [a (.merge "j" (Dict.empty.insert "kind" .null)), .tell 0 default]
    ∃ r₀, Registry.new ⟨1, 1, 8, "/", "", ""⟩ = some r₀ ∧
      let d := (start r₀).run past
      (d.published "j" [.finish default]).filterMap Event.artifacts? =
        [[.build "j" .refined "out.csv" 2]] ∧
      ∃ k, ((d.act (.finish default)).run later).registry.get? "j" = some k ∧
        k.metadata.get? Metadata.artifactsKey =
          some (Artifact.listed [.build "j" .refined "out.csv" 1]) := by
  intro a output options past later
  obtain ⟨r₀, h⟩ : ∃ r₀, Registry.new ⟨1, 1, 8, "/", "", ""⟩ = some r₀ := ⟨_, rfl⟩
  have hready : (((start r₀).run past).published "j" [.finish default]).filterMap Event.artifacts? =
      [[.build "j" .refined "out.csv" 2]] := by
    cases h
    decide +kernel
  have hkeys : Metadata.artifactsKey ∉
      mergedKeys "j" ((((start r₀).run past).act (.finish default)).history later) := by
    cases h
    decide +kernel
  have hlast : lastAnnounced [.build "j" .refined "out.csv" 2]
      ((((start r₀).run past).act (.finish default)).published "j" later) =
        [.build "j" .refined "out.csv" 1] := by
    cases h
    decide +kernel
  obtain ⟨e, he, hp⟩ := List.mem_filterMap.mp (hready ▸ List.mem_singleton_self _)
  obtain ⟨-, -, hk⟩ := (announced_truthfully h past).1 _ _ e _ rfl he
    (Event.artifacts?_eq_some_iff.mp hp)
  obtain ⟨k, hk, hm⟩ := hk later hkeys
  exact ⟨r₀, h, hready, k, hk, hlast ▸ hm⟩

end Depot

end JobConsole
