import JobConsole.Proofs.Artifact.Ids
import JobConsole.Proofs.Files.Growth

/-! # Places of a job

What is found at the places of a job: the regular file at a path, the regular files in a directory by their
names, which differ and so have one order, and nothing at a place that leads nowhere.
-/

namespace JobConsole.Resolved

open FileSystem (Proper)

variable {fs : FileSystem} {j j' : Job} {kind : ArtifactKind} {jobId dir p s : String} {r : Resolved}
  {rs : List Resolved} {l : Location}

/-! ## One path -/

def isRegular (fs : FileSystem) (p : String) : Bool := (fs.readFile p).isSome

theorem isSome_ofFile? (fs : FileSystem) (jobId : String) (kind : ArtifactKind) (p : String) :
    (ofFile? fs jobId kind p).isSome = isRegular fs p := by
  simp only [ofFile?, FileSystem.fileSize?, Option.isSome_map, isRegular]

theorem kind_of_ofFile? (h : ofFile? fs jobId kind p = some r) : r.artifact.kind = kind := by
  obtain ⟨n, -, rfl⟩ := Option.map_eq_some_iff.mp h
  rfl

theorem name_of_ofFile? (hs : Path.IsName s) (hd : dir ≠ "")
    (h : ofFile? fs jobId kind (Path.join dir s) = some r) : r.artifact.name = s := by
  obtain ⟨hb, hp⟩ := backed_of_ofFile? h
  rw [hb.name_eq, hp, Path.fileName_join hs hd]

/-! ## The order of names -/

def byName (a b : Resolved) : Bool := decide (a.artifact.name ≤ b.artifact.name)

theorem pairwise_byName (rs : List Resolved) :
    (rs.mergeSort byName).Pairwise fun a b => byName a b = true := by
  refine List.pairwise_mergeSort (fun a b c hab hbc => ?_) (fun a b => ?_) rs
  · simp only [byName, decide_eq_true_eq] at hab hbc ⊢
    exact String.le_trans hab hbc
  · simp only [byName, Bool.or_eq_true, decide_eq_true_eq]
    exact String.le_total _ _

theorem eq_of_pairwise_byName {rs' : List Resolved} (hp : rs.Perm rs')
    (h : rs.Pairwise fun a b => byName a b = true) (h' : rs'.Pairwise fun a b => byName a b = true)
    (hn : ∀ a ∈ rs, ∀ b ∈ rs, a.artifact.name = b.artifact.name → a = b) : rs = rs' := by
  refine List.Perm.eq_of_pairwise (fun a b ha hb hab hba => ?_) h h' hp
  refine hn a ha b (hp.mem_iff.mpr hb) ?_
  simp only [byName, decide_eq_true_eq] at hab hba
  exact String.le_antisymm hab hba

/-! ## The files in a directory -/

theorem inDirectory_of_find (hf : fs.find dir = .ok l)
    (hd : fs.entry? l = some .directory) (jobId : String) :
    inDirectory fs jobId dir =
      ((fs.namesIn l).filterMap fun s => ofFile? fs jobId .archive (Path.join dir s)).mergeSort
        byName := by
  have hr := FileSystem.readDirectory_eq_ok_iff.mpr ⟨l, hf, hd, rfl⟩
  simp only [inDirectory, hr]
  rfl

theorem inDirectory_of_not (h : ¬∃ l, fs.find dir = .ok l ∧ fs.entry? l = some .directory)
    (jobId : String) : inDirectory fs jobId dir = [] := by
  unfold inDirectory
  split
  · rfl
  next names hr =>
    obtain ⟨l, hf, hd, -⟩ := FileSystem.readDirectory_eq_ok_iff.mp hr
    exact absurd ⟨l, hf, hd⟩ h

theorem of_mem_inDirectory (hp : fs.Proper) (h : r ∈ inDirectory fs jobId dir) :
    r.artifact.kind = .archive ∧ r.path = Path.join dir r.artifact.name := by
  by_cases hdir : ∃ l, fs.find dir = .ok l ∧ fs.entry? l = some .directory
  · obtain ⟨l, hf, hd⟩ := hdir
    rw [inDirectory_of_find hf hd] at h
    obtain ⟨s, hs, hr⟩ := List.mem_filterMap.mp (List.mem_mergeSort.mp h)
    have hne := (FileSystem.find_eq_ok_iff.mp hf).1.ne_empty
    rw [name_of_ofFile? (hp.isName hs) hne hr]
    exact ⟨kind_of_ofFile? hr, (backed_of_ofFile? hr).2⟩
  · rw [inDirectory_of_not hdir] at h
    cases h

theorem names_filterMap {f : String → Option Resolved} {ns : List String}
    (hf : ∀ s ∈ ns, ∀ r, f s = some r → r.artifact.name = s) :
    (ns.filterMap f).map (·.artifact.name) = ns.filter fun s => (f s).isSome := by
  induction ns with
  | nil => rfl
  | cons s ns ih =>
    obtain ⟨hs, hns⟩ := List.forall_mem_cons.mp hf
    cases hr : f s with
    | none => rw [List.filterMap_cons_none hr, List.filter_cons_of_neg (by simp [hr]), ih hns]
    | some r =>
      rw [List.filterMap_cons_some hr, List.filter_cons_of_pos (by simp [hr]), List.map_cons, hs r hr,
        ih hns]

theorem names_inDirectory_perm (hp : fs.Proper) (hf : fs.find dir = .ok l)
    (hd : fs.entry? l = some .directory) (jobId : String) :
    ((inDirectory fs jobId dir).map (·.artifact.name)).Perm
      ((fs.namesIn l).filter fun s => isRegular fs (Path.join dir s)) := by
  have hne := (FileSystem.find_eq_ok_iff.mp hf).1.ne_empty
  have hnames : ((fs.namesIn l).filterMap fun s =>
      ofFile? fs jobId .archive (Path.join dir s)).map (·.artifact.name) =
        (fs.namesIn l).filter fun s => (ofFile? fs jobId .archive (Path.join dir s)).isSome :=
    names_filterMap fun s hs r hr => name_of_ofFile? (hp.isName hs) hne hr
  simp only [isSome_ofFile?] at hnames
  rw [inDirectory_of_find hf hd, ← hnames]
  exact (List.mergeSort_perm _ _).map _

theorem pairwise_inDirectory (fs : FileSystem) (jobId dir : String) :
    (inDirectory fs jobId dir).Pairwise fun a b => byName a b = true := by
  unfold inDirectory
  split
  · exact .nil
  · exact pairwise_byName _

theorem nodup_names_inDirectory (hp : fs.Proper) (jobId dir : String) :
    ((inDirectory fs jobId dir).map (·.artifact.name)).Nodup := by
  by_cases hdir : ∃ l, fs.find dir = .ok l ∧ fs.entry? l = some .directory
  · obtain ⟨l, hf, hd⟩ := hdir
    exact (names_inDirectory_perm hp hf hd jobId).nodup_iff.mpr ((hp.nodup_namesIn l).filter _)
  · rw [inDirectory_of_not hdir]
    exact List.nodup_nil

theorem inDirectory_eq_of_perm (hp : fs.Proper) (hf : fs.find dir = .ok l)
    (hd : fs.entry? l = some .directory)
    (hperm : ((fs.namesIn l).filterMap fun s => ofFile? fs jobId .archive (Path.join dir s)).Perm rs)
    (hs : rs.Pairwise fun a b => byName a b = true) : inDirectory fs jobId dir = rs := by
  have hfound : (inDirectory fs jobId dir).Perm rs := by
    rw [inDirectory_of_find hf hd]
    exact (List.mergeSort_perm _ _).trans hperm
  refine eq_of_pairwise_byName hfound (pairwise_inDirectory ..) hs fun a ha b hb hn => ?_
  exact List.inj_on_of_nodup_map (nodup_names_inDirectory hp jobId dir) ha hb hn

/-! ## Places that lead nowhere -/

def reached (fs : FileSystem) (j : Job) (key : String) : Option String :=
  (placeOf j key).filter fun p => (fs.find p).isOk

theorem atPlace_eq_reached (fs : FileSystem) (j : Job) (kind : ArtifactKind) (key : String) :
    atPlace fs j kind key = ((reached fs j key).bind (ofFile? fs j.id kind)).toList := by
  rw [atPlace, reached]
  cases placeOf j key with
  | none => rfl
  | some p =>
    cases hf : fs.find p with
    | ok l => simp [Option.filter, hf, Except.isOk, Except.toBool]
    | error x =>
      simp [Option.filter, hf, Except.isOk, Except.toBool, ofFile?, FileSystem.fileSize?,
        FileSystem.readFile_of_error hf]

theorem inArchive_eq_reached (fs : FileSystem) (j : Job) :
    inArchive fs j = ((reached fs j Metadata.archiveDirKey).map (inDirectory fs j.id)).getD [] := by
  rw [inArchive, reached]
  cases placeOf j Metadata.archiveDirKey with
  | none => rfl
  | some dir =>
    cases hf : fs.find dir with
    | ok l => simp [Option.filter, hf, Except.isOk, Except.toBool]
    | error x =>
      simp only [Option.filter, hf, Except.isOk, Except.toBool]
      exact inDirectory_of_not (by simp [hf]) j.id

theorem resolve_congr (hid : j'.id = j.id)
    (h : ∀ key ∈ placeKeys, reached fs j' key = reached fs j key) :
    resolve fs j' = resolve fs j := by
  have hout := h Metadata.outputPathKey (by simp [placeKeys])
  have harchive := h Metadata.archiveDirKey (by simp [placeKeys])
  have hprofile := h Metadata.profilePathKey (by simp [placeKeys])
  have hcontract := h Metadata.contractPathKey (by simp [placeKeys])
  simp only [resolve, candidates, atPlace_eq_reached, inArchive_eq_reached, hid, hout, harchive,
    hprofile, hcontract]

end JobConsole.Resolved
