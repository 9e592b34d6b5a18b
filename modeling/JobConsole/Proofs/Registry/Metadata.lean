import JobConsole.Proofs.Job.Metadata
import JobConsole.Proofs.Registry.Submission

/-! # Metadata along a run

A merge and an announcement write into the metadata of a job, and nothing else does. So under every
key stands what the last of them wrote there, or what the job was submitted with, and a key that is
there stays there, whatever its value.
-/

namespace JobConsole

/-- What an operation writes into the metadata of a job. -/
def Operation.written (id : String) : Operation → Metadata
  | .merge i part => if i = id then part else .empty
  | .announce i artifacts =>
    if i = id then
      Dict.empty.insert Metadata.artifactsKey (.array (artifacts.map Artifact.toJson))
    else .empty
  | _ => .empty

def Job.withMerged (j : Job) (part : Metadata) : Job :=
  { j with metadata := j.metadata.merge part }

theorem Job.withMerged_withMerged (j : Job) (p q : Metadata) :
    (j.withMerged p).withMerged q = j.withMerged (p.merge q) := by
  simp only [withMerged, Metadata.merge_merge]

theorem Changed.metadata_eq {j j' : Job} {now : Timestamp} {c : Change} {p : Payload}
    (h : Changed j now c j' p) : j'.metadata = j.metadata := by
  cases h with
  | finished _ hj => rw [hj]
  | _ => rfl

namespace Registry

variable {r r' : Registry} {id i : String} {j l : Job} {now : Timestamp} {o : Operation}
  {os : List Timed} {as : List Bus.Act}

theorem metadata_change (hj : r.get? id = some j) (i : String) (c : Change) (now : Timestamp) :
    ∃ k, (r.change i c now).get? id = some k ∧ k.metadata = j.metadata := by
  rcases change_cases r i c now with ⟨hr, -, -⟩ | ⟨l, j', p, hl, hc, hr, -⟩
  · exact ⟨j, hr.symm ▸ hj, rfl⟩
  · have hid : j'.id = i := hc.id_eq.trans (id_of_get? hl)
    rw [hr, get?_publish]
    by_cases hi : i = id
    · subst hi
      obtain rfl := Option.some.inj (hj.symm.trans hl)
      exact ⟨j', get?_setJob_self hj hid, hc.metadata_eq⟩
    · exact ⟨j, (get?_setJob_of_ne hid (Ne.symm hi)).trans hj, rfl⟩

theorem metadata_setJob (hj : r.get? id = some j) (hl : r.get? i = some l) (part : Metadata) :
    ∃ k, (r.setJob (l.withMerged part)).get? id = some k ∧
      k.metadata = j.metadata.merge (if i = id then part else .empty) := by
  have hid : l.id = i := id_of_get? hl
  by_cases hi : i = id
  · subst hi
    obtain rfl := Option.some.inj (hj.symm.trans hl)
    exact ⟨_, get?_setJob_self hj hid, by rw [if_pos rfl]; rfl⟩
  · have hne : id ≠ i := Ne.symm hi
    exact ⟨j, (get?_setJob_of_ne (j := l.withMerged part) hid hne).trans hj, by rw [if_neg hi]; rfl⟩

/-- Apart from merges and announcements no operation touches the metadata of a job. -/
theorem Effect.metadata_eq (h : Effect r now o r' as) (hj : r.get? id = some j)
    (hm : ∀ i part, o ≠ .merge i part) (ha : ∀ i artifacts, o ≠ .announce i artifacts) :
    ∃ k, r'.get? id = some k ∧ k.metadata = j.metadata := by
  cases h with
  | submitted => exact ⟨j, get?_enroll hj, rfl⟩
  | merged => exact absurd rfl (hm _ _)
  | announced => exact absurd rfl (ha _ _)
  | @changed i c => exact metadata_change hj i c now
  | left => exact ⟨j, (get?_release ..).trans hj, rfl⟩
  | @moved i a t stage c _ _ =>
    cases c with
    | none => exact ⟨j, hj, rfl⟩
    | some c => exact metadata_change hj i c now
  | _ => exact ⟨j, hj, rfl⟩

theorem metadata_apply (hj : r.get? id = some j) (now : Timestamp) (o : Operation) :
    ∃ k, (r.apply now o).get? id = some k ∧ k.metadata = j.metadata.merge (o.written id) := by
  have unknown {i : String} (hi : r.get? i = none) (part : Metadata) :
      j.metadata = j.metadata.merge (if i = id then part else .empty) := by
    rw [if_neg fun h => by simp [h, hj] at hi]
    rfl
  cases o with
  | merge i part =>
    simp only [apply, mergeMetadata]
    cases hi : r.get? i with
    | none => exact ⟨j, hj, unknown hi part⟩
    | some l => exact metadata_setJob hj hi part
  | announce i artifacts =>
    simp only [apply, announce]
    cases hi : r.get? i with
    | none => exact ⟨j, hj, unknown hi _⟩
    | some l => exact metadata_setJob hj hi _
  | _ => exact (effect r now _).metadata_eq hj (by simp) (by simp)

theorem metadata_runAll (hj : r.get? id = some j) (os : List Timed) :
    ∃ k, (r.runAll os).get? id = some k ∧
      k.metadata = (os.map (·.op.written id)).foldl Metadata.merge j.metadata := by
  induction os generalizing r j with
  | nil => exact ⟨j, hj, rfl⟩
  | cons o os ih =>
    obtain ⟨k, hk, hm⟩ := metadata_apply hj o.now o.op
    obtain ⟨l, hl, hm'⟩ := ih hk
    exact ⟨l, hl, by rw [hm', hm, List.map_cons, List.foldl_cons]⟩

theorem isSome_metadata_runAll {key : String} (hj : r.get? id = some j)
    (hk : (j.metadata.get? key).isSome) (os : List Timed) :
    ∃ k, (r.runAll os).get? id = some k ∧ (k.metadata.get? key).isSome := by
  induction os generalizing r j with
  | nil => exact ⟨j, hj, hk⟩
  | cons o os ih =>
    obtain ⟨k, hk', hm⟩ := metadata_apply hj o.now o.op
    exact ih hk' (hm ▸ Metadata.isSome_get?_merge hk _)

/-! ## Where a job comes from -/

theorem exists_submission (hp : r.Paired) (hn : r.get? id = none)
    (hj : (r.runAll os).get? id = some j) :
    ∃ before command options fresh now after j₀ r₁,
      os = before ++ ⟨now, .submit command options fresh⟩ :: after ∧
      (r.runAll before).submit command options fresh now = .ok (j₀, r₁) ∧ j₀.id = id := by
  induction os generalizing r with
  | nil => cases hn.symm.trans hj
  | cons o os ih =>
    have he := effect r o.now o.op
    cases hget : (r.apply o.now o.op).get? id with
    | none =>
      obtain ⟨before, command, options, fresh, now, after, j₀, r₁, rfl, hs, hid⟩ :=
        ih (he.paired hp) hget hj
      exact ⟨o :: before, command, options, fresh, now, after, j₀, r₁, rfl, hs, hid⟩
    | some j₁ =>
      obtain ⟨now, op⟩ := o
      rcases he.admits hp with ⟨ha, -⟩ |
        ⟨i, command, options, fresh, rfl, hc, hi, hfree, hr, -⟩
      · have := isSome_get?_congr ha id
        simp [hn, hget] at this
      · have hs : r.submit command options fresh now = .ok (r.enroll i command options now) :=
          submit_eq_ok hc hi hfree
        refine ⟨[], command, options, fresh, now, os, _, _, rfl, hs, ?_⟩
        by_contra hne
        have hne : i ≠ id := hne
        rw [hr, get?_enroll_of_ne hne, hn] at hget
        cases hget

theorem metadata_of_submit {command : List String} {options : JobOptions} {fresh : String}
    (h : r.submit command options fresh now = .ok (j, r')) :
    j.metadata = options.metadata ∧ r'.get? j.id = some j ∧
      r.apply now (.submit command options fresh) = r' := by
  obtain ⟨id, -, -, hn, he⟩ := chooseId_of_submit h
  refine ⟨?_, ?_, by rw [apply, h]; rfl⟩
  all_goals obtain ⟨rfl, rfl⟩ := Prod.mk.inj he
  · rfl
  · exact get?_enroll_self hn

/-! ## One merge -/

theorem mergeMetadata_eq (hj : r.get? id = some j) (part : Metadata) :
    r.mergeMetadata id part =
      .ok (j.withMerged part, r.setJob (j.withMerged part)) := by
  simp only [mergeMetadata, hj, Job.withMerged]

theorem mergeMetadata_of_unknown (hn : r.get? id = none) (part : Metadata) :
    r.mergeMetadata id part = .error (.notFound .job id) := by
  simp only [mergeMetadata, hn]

theorem apply_merge (hj : r.get? id = some j) (part : Metadata) (now : Timestamp) :
    r.apply now (.merge id part) = r.setJob (j.withMerged part) := by
  rw [apply, mergeMetadata_eq hj]
  rfl

theorem apply_merge_of_unknown (hn : r.get? id = none) (part : Metadata) (now : Timestamp) :
    r.apply now (.merge id part) = r := by
  rw [apply, mergeMetadata_of_unknown hn]
  rfl

theorem setJob_setJob {j j' : Job} (r : Registry) (h : j.id = j'.id) :
    (r.setJob j).setJob j' = r.setJob j' := by
  simp only [setJob, List.map_map]
  congr 1
  refine List.map_congr_left fun k _ => ?_
  by_cases hk : k.id = j'.id <;> simp [hk, h]

theorem apply_merge_merge (r : Registry) (id : String) (p q : Metadata)
    (now now' now'' : Timestamp) :
    (r.apply now (.merge id p)).apply now' (.merge id q) =
      r.apply now'' (.merge id (p.merge q)) := by
  cases hj : r.get? id with
  | none => simp only [apply_merge_of_unknown hj]
  | some j =>
    have hid : j.id = id := id_of_get? hj
    have hk : (r.setJob (j.withMerged p)).get? id = some (j.withMerged p) :=
      get?_setJob_self hj hid
    have hsame : (j.withMerged p).id = (j.withMerged (p.merge q)).id := rfl
    rw [apply_merge hj, apply_merge hk, apply_merge hj, Job.withMerged_withMerged,
      setJob_setJob r hsame]

theorem apply_merge_comm (r : Registry) (id : String) {p q : Metadata}
    (h : ∀ key ∈ p.keys, key ∉ q.keys) (now now' : Timestamp) :
    (r.apply now (.merge id p)).apply now' (.merge id q) =
      (r.apply now (.merge id q)).apply now' (.merge id p) := by
  have hcomm : p.merge q = q.merge p := by
    have := Metadata.merge_comm_of_disjoint h .empty
    simpa only [Metadata.merge_merge, Metadata.empty_merge] using this
  rw [apply_merge_merge r id p q now now' now, apply_merge_merge r id q p now now' now, hcomm]

/-- Every job has been submitted, and under every key of its metadata stands what was last merged or
announced under it, or what the job was submitted with; no key disappears. A merge publishes nothing and
changes nothing but the metadata of its job. Two merges are one merge of both parts, those without a
common key commute, and a merge lists the keys of its part in the order of their octets. Where there is
no such job nothing changes. -/
theorem last_writer_wins {c : JobsConfig} {r₀ : Registry} (h : Registry.new c = some r₀)
    (os : List Timed) :
    let r := r₀.runAll os
    (∀ before command options fresh now after j₀ r₁,
      os = before ++ ⟨now, .submit command options fresh⟩ :: after →
      (r₀.runAll before).submit command options fresh now = .ok (j₀, r₁) →
      ∃ j, r.get? j₀.id = some j ∧ ∀ key, j.metadata.get? key =
        Metadata.lastUnder key (options.metadata :: after.map (·.op.written j₀.id))) ∧
    (∀ id j, r.get? id = some j →
      (∃ before command options fresh now after j₀ r₁,
        os = before ++ ⟨now, .submit command options fresh⟩ :: after ∧
        (r₀.runAll before).submit command options fresh now = .ok (j₀, r₁) ∧ j₀.id = id) ∧
      (∀ later, ∃ k, (r.runAll later).get? id = some k ∧
        ∀ key ∈ j.metadata.keys, key ∈ k.metadata.keys) ∧
      ∀ part now,
        r.mergeMetadata id part = .ok (j.withMerged part, r.apply now (.merge id part)) ∧
        r.apply now (.merge id part) =
          { r with jobs := r.jobs.map fun k => if k.id = id then j.withMerged part else k } ∧
        r.busActs now (.merge id part) = []) ∧
    (∀ id p q now now' now'', (r.apply now (.merge id p)).apply now' (.merge id q) =
      r.apply now'' (.merge id (p.merge q))) ∧
    (∀ id p q now now', (∀ key ∈ p.keys, key ∉ q.keys) →
      (r.apply now (.merge id p)).apply now' (.merge id q) =
        (r.apply now (.merge id q)).apply now' (.merge id p)) ∧
    (∀ m part : Metadata, m.mergeWithKeys part = (part.keys, m.merge part) ∧
      part.keys.Pairwise fun k l => Text.Utf8.encode k < Text.Utf8.encode l) ∧
    ∀ id part now, r.get? id = none →
      r.mergeMetadata id part = .error (.notFound .job id) ∧
        r.apply now (.merge id part) = r := by
  intro r
  have hnone (id : String) : r₀.get? id = none := by rw [get?, jobs_new h, List.find?_nil]
  refine ⟨?_, fun id j hj =>
      ⟨exists_submission (paired_new h) (hnone id) hj, fun later => ?_, fun part now => ?_⟩,
    fun id p q now now' now'' => apply_merge_merge r id p q now now' now'',
    fun id p q now now' hd => apply_merge_comm r id hd now now',
    fun m part => ⟨m.mergeWithKeys_eq part, part.keys_pairwise_encode⟩,
    fun id part now hn =>
      ⟨mergeMetadata_of_unknown hn part, apply_merge_of_unknown hn part now⟩⟩
  · rintro before command options fresh now after j₀ r₁ rfl hs
    obtain ⟨hm, hj₀, hr₁⟩ := metadata_of_submit hs
    obtain ⟨j, hj, hmj⟩ := metadata_runAll hj₀ after
    have hr : r = r₁.runAll after := by
      rw [← hr₁]
      exact runAll_append r₀ before _
    refine ⟨j, hr ▸ hj, fun key => ?_⟩
    rw [hmj, hm, Metadata.get?_foldl_merge]
  · obtain ⟨k, hk, -⟩ := metadata_runAll hj later
    refine ⟨k, hk, fun key hkey => ?_⟩
    obtain ⟨l, hl, hkey'⟩ := isSome_metadata_runAll hj (Dict.isSome_get?_iff.mpr hkey) later
    obtain rfl := Option.some.inj (hk.symm.trans hl)
    exact Dict.isSome_get?_iff.mp hkey'
  · have hid : j.id = id := id_of_get? hj
    have hid : (j.withMerged part).id = id := hid
    refine ⟨(mergeMetadata_eq hj part).trans (by rw [apply_merge hj]), ?_, rfl⟩
    rw [apply_merge hj, setJob, hid]

/-- A client stores a null over a submitted value before the job starts and writes the list of artifacts
over after it has been announced. -/
theorem last_writer_wins_of_null :
    let submitted := (Dict.empty.insert "kind" (.text "import")).insert "outputPath" (.text "out")
    let options : JobOptions := { JobOptions.none with metadata := submitted }
    let part : Metadata := Dict.empty.insert "kind" .null
    let other : Metadata := Dict.empty.insert Metadata.artifactsKey (.bool true)
    let after : List Timed :=
      [⟨default, .merge "a" part⟩, ⟨default, .change "a" (.start none)⟩,
        ⟨default, .announce "a" [.build "a" .refined "out" 1]⟩, ⟨default, .merge "b" part⟩,
        ⟨default, .merge "a" other⟩]
    let os : List Timed := ⟨default, .submit ["true"] options "a"⟩ :: after
    ∃ r₀ j, Registry.new ⟨1, 1, 8, "/", "", ""⟩ = some r₀ ∧
      (r₀.runAll os).get? "a" = some j ∧ j.metadata.get? "kind" = some .null ∧
      j.metadata.get? "outputPath" = some (.text "out") ∧
      j.metadata.get? Metadata.artifactsKey = some (.bool true) ∧
      (∀ key ∈ part.keys, key ∉ other.keys) ∧
      ((r₀.runAll os).apply default (.merge "a" part)).apply default (.merge "a" other) =
        ((r₀.runAll os).apply default (.merge "a" other)).apply default (.merge "a" part) ∧
      (r₀.runAll os).get? "b" = none ∧
      (r₀.runAll os).apply default (.merge "b" part) = r₀.runAll os := by
  intro submitted options part other after os
  obtain ⟨r₀, h, j₀, r₁, hs⟩ : ∃ r₀, Registry.new ⟨1, 1, 8, "/", "", ""⟩ = some r₀ ∧ ∃ j₀ r₁,
      r₀.submit ["true"] options "a" default = .ok (j₀, r₁) := ⟨_, rfl, _, _, rfl⟩
  have hid : j₀.id = "a" := by
    cases h
    cases hs
    rfl
  have hd : ∀ key ∈ part.keys, key ∉ other.keys := by decide +kernel
  have hn : (r₀.runAll os).get? "b" = none := by
    cases h
    decide +kernel
  obtain ⟨hvalue, -, -, hcomm, -, hunknown⟩ := last_writer_wins h os
  obtain ⟨j, hj, hm⟩ := hvalue [] _ options _ _ after j₀ r₁ rfl hs
  rw [hid] at hj hm
  exact ⟨r₀, j, h, hj, hm "kind", hm "outputPath", hm Metadata.artifactsKey, hd,
    hcomm "a" part other default default hd, hn, (hunknown "b" part default hn).2⟩

end Registry

end JobConsole
