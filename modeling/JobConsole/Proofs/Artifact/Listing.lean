import JobConsole.Proofs.Artifact.Places
import JobConsole.Proofs.Artifact.Repetition
import JobConsole.Proofs.Text.Order

/-! # What is listed, and in which order

A listing goes through the places of a job in their order: the output, the regular files in the archive by
the octets of their names, the profile, the contract. What repeats the components of an earlier path is left
out, and nothing else is. The order in which the names in a directory are read makes no difference, nor does
a place that leads nowhere.
-/

namespace JobConsole

/-! ## Directories read in another order -/

namespace FileSystem

variable {fs fs' : FileSystem} {l : Location} {e : Entry} {p : String}

/-- The one file system is the other with its directories read in another order. -/
structure Reordered (fs fs' : FileSystem) : Prop where
  entries : fs.entries.Perm fs'.entries
  current : fs'.current = fs.current

theorem entry?_eq_some_iff (h : fs.Proper) (hl : l ≠ []) :
    fs.entry? l = some e ↔ (l, e) ∈ fs.entries := by
  unfold entry?
  rw [if_neg hl, List.lookup_eq_some_iff]
  constructor
  · rintro ⟨before, after, he, -⟩
    exact he ▸ List.mem_append_right before List.mem_cons_self
  · intro hm
    obtain ⟨before, after, he⟩ := List.append_of_mem hm
    refine ⟨before, after, he, fun x hx => bne_iff_ne.mpr fun hk => ?_⟩
    have hn := h.distinct
    rw [he, List.map_append, List.map_cons] at hn
    exact List.disjoint_of_nodup_append hn (List.mem_map_of_mem hx) (hk ▸ List.mem_cons_self)

theorem Reordered.proper (h : fs.Reordered fs') (hp : fs.Proper) : fs'.Proper where
  distinct := (h.entries.map Prod.fst).nodup_iff.mp hp.distinct
  named := fun e he => hp.named e (h.entries.mem_iff.mpr he)

theorem Reordered.entry?_eq (h : fs.Reordered fs') (hp : fs.Proper) (l : Location) :
    fs'.entry? l = fs.entry? l := by
  by_cases hl : l = []
  · unfold entry?
    rw [if_pos hl, if_pos hl]
  · refine Option.ext fun e => ?_
    rw [entry?_eq_some_iff (h.proper hp) hl, entry?_eq_some_iff hp hl, h.entries.mem_iff]

theorem Reordered.find_iff (h : fs.Reordered fs') (hp : fs.Proper) :
    fs'.find p = .ok l ↔ fs.find p = .ok l := by
  have hstart : fs'.start p = fs.start p := by rw [start, start, h.current]
  rw [find_eq_ok_iff, find_eq_ok_iff, hstart]
  exact and_congr_right fun _ =>
    ⟨fun hw => hw.congr fun l => (h.entry?_eq hp l).symm, fun hw => hw.congr (h.entry?_eq hp)⟩

theorem Reordered.readFile_eq (h : fs.Reordered fs') (hp : fs.Proper) (p : String) :
    fs'.readFile p = fs.readFile p := by
  refine Option.ext fun content => ?_
  simp only [readFile_eq_some_iff, h.find_iff hp, h.entry?_eq hp]

theorem Reordered.namesIn_perm (h : fs.Reordered fs') (l : Location) :
    (fs.namesIn l).Perm (fs'.namesIn l) :=
  h.entries.filterMap _

end FileSystem

namespace Resolved

open FileSystem (Proper Reordered)

variable {fs fs' : FileSystem} {j : Job} {dir : String} {l : Location}

/-! ## Listings of directories read in another order -/

theorem ofFile?_reordered (hp : fs.Proper) (h : fs.Reordered fs') (jobId : String)
    (kind : ArtifactKind) (p : String) : ofFile? fs' jobId kind p = ofFile? fs jobId kind p := by
  simp only [ofFile?, FileSystem.fileSize?, h.readFile_eq hp]

theorem inDirectory_reordered (hp : fs.Proper) (h : fs.Reordered fs') (jobId dir : String) :
    inDirectory fs' jobId dir = inDirectory fs jobId dir := by
  by_cases hdir : ∃ l, fs.find dir = .ok l ∧ fs.entry? l = some .directory
  · obtain ⟨l, hf, hd⟩ := hdir
    refine (inDirectory_eq_of_perm hp hf hd ?_ (pairwise_inDirectory ..)).symm
    rw [inDirectory_of_find ((h.find_iff hp).mpr hf) ((h.entry?_eq hp l).trans hd)]
    refine .trans ?_ (List.mergeSort_perm _ _).symm
    simp only [ofFile?_reordered hp h]
    exact (h.namesIn_perm l).filterMap _
  · have hdir' : ¬∃ l, fs'.find dir = .ok l ∧ fs'.entry? l = some .directory := by
      simpa only [h.find_iff hp, h.entry?_eq hp] using hdir
    rw [inDirectory_of_not hdir, inDirectory_of_not hdir']

theorem resolve_reordered (hp : fs.Proper) (h : fs.Reordered fs') (j : Job) :
    resolve fs' j = resolve fs j := by
  simp only [resolve, candidates, atPlace, inArchive, funext (ofFile?_reordered hp h j.id _),
    inDirectory_reordered hp h]

/-! ## The listing -/

theorem pairwise_names_inDirectory (hp : fs.Proper) (jobId dir : String) :
    ((inDirectory fs jobId dir).map (·.artifact.name)).Pairwise fun s t =>
      Text.Utf8.encode s < Text.Utf8.encode t := by
  have hle : ((inDirectory fs jobId dir).map (·.artifact.name)).Pairwise (· ≤ ·) :=
    List.pairwise_map.mpr ((pairwise_inDirectory fs jobId dir).imp of_decide_eq_true)
  refine (hle.and (nodup_names_inDirectory hp jobId dir)).imp fun h => ?_
  exact Text.Utf8.encode_lt_of_lt (lt_of_le_of_ne h.1 h.2)

/-- What a listing says of a place: the kind of the artifact and the path. -/
def lookedAt (r : Resolved) : ArtifactKind × String := (r.artifact.kind, r.path)

def sameComponents (a b : ArtifactKind × String) : Bool :=
  Path.components a.2 == Path.components b.2

theorem map_firstByPath (seen : List (List Path.Component)) (rs : List Resolved) :
    (firstByPath seen rs).map lookedAt =
      ((rs.map lookedAt).filter fun x => !seen.contains (Path.components x.2)).eraseDupsBy
        sameComponents := by
  induction rs generalizing seen with
  | nil => rfl
  | cons r rs ih =>
    have hpath : (lookedAt r).2 = r.path := rfl
    by_cases h : Path.components r.path ∈ seen
    · rw [firstByPath_of_mem h, ih, List.map_cons, List.filter_cons_of_neg (by simpa [hpath] using h)]
    · rw [firstByPath_of_notMem h, List.map_cons, List.map_cons, ih,
        List.filter_cons_of_pos (by simpa [hpath] using h), List.eraseDupsBy_cons, List.filter_filter]
      refine congrArg (fun xs => lookedAt r :: List.eraseDupsBy sameComponents xs) ?_
      refine List.filter_congr fun x _ => ?_
      simp [sameComponents, hpath]

def regularAt (fs : FileSystem) (j : Job) (kind : ArtifactKind) (key : String) :
    List (ArtifactKind × String) :=
  ((placeOf j key).filter (isRegular fs)).toList.map fun p => (kind, p)

/-- The regular files at the places of a job in their order, given the names in its archive. -/
def regularFiles (fs : FileSystem) (j : Job) (names : List String) :
    List (ArtifactKind × String) :=
  regularAt fs j .refined Metadata.outputPathKey ++
    ((placeOf j Metadata.archiveDirKey).toList.flatMap fun dir =>
      names.map fun s => (.archive, Path.join dir s)) ++
    regularAt fs j .profile Metadata.profilePathKey ++
    regularAt fs j .contract Metadata.contractPathKey

def NamesArchived (fs : FileSystem) (j : Job) (s : String) : Prop :=
  ∃ dir l, placeOf j Metadata.archiveDirKey = some dir ∧ fs.find dir = .ok l ∧
    fs.entry? l = some .directory ∧ s ∈ fs.namesIn l ∧ isRegular fs (Path.join dir s) = true

theorem map_atPlace (fs : FileSystem) (j : Job) (kind : ArtifactKind) (key : String) :
    (atPlace fs j kind key).map lookedAt = regularAt fs j kind key := by
  rw [atPlace, regularAt]
  cases placeOf j key with
  | none => rfl
  | some p =>
    have hsome := isSome_ofFile? fs j.id kind p
    cases hr : ofFile? fs j.id kind p with
    | none =>
      rw [hr] at hsome
      simp [Option.filter, hr, ← hsome]
    | some r =>
      rw [hr] at hsome
      have hlooked : lookedAt r = (kind, p) := by
        rw [lookedAt, kind_of_ofFile? hr, (backed_of_ofFile? hr).2]
      simp [Option.filter, hr, ← hsome, hlooked]

theorem map_inArchive (hp : fs.Proper) (j : Job) :
    (inArchive fs j).map lookedAt =
      (placeOf j Metadata.archiveDirKey).toList.flatMap fun dir =>
        ((inArchive fs j).map (·.artifact.name)).map fun s => (.archive, Path.join dir s) := by
  unfold inArchive
  cases placeOf j Metadata.archiveDirKey with
  | none => rfl
  | some dir =>
    simp only [Option.toList_some, List.flatMap_cons, List.flatMap_nil, List.append_nil, List.map_map]
    refine List.map_congr_left fun r hr => ?_
    obtain ⟨hkind, hpath⟩ := of_mem_inDirectory hp hr
    rw [lookedAt, hkind, hpath]
    rfl

theorem namesArchived_iff {s : String} (hplace : placeOf j Metadata.archiveDirKey = some dir)
    (hf : fs.find dir = .ok l) (hd : fs.entry? l = some .directory) :
    NamesArchived fs j s ↔
      s ∈ (fs.namesIn l).filter fun s => isRegular fs (Path.join dir s) := by
  rw [List.mem_filter]
  constructor
  · rintro ⟨dir', l', hplace', hf', -, hs⟩
    obtain rfl := Option.some.inj (hplace.symm.trans hplace')
    obtain rfl := Except.ok.inj (hf.symm.trans hf')
    exact hs
  · exact fun hs => ⟨dir, l, hplace, hf, hd, hs⟩

theorem mem_names_inArchive_iff {s : String} (hp : fs.Proper) :
    s ∈ (inArchive fs j).map (·.artifact.name) ↔ NamesArchived fs j s := by
  by_cases hdir : ∃ dir l, placeOf j Metadata.archiveDirKey = some dir ∧ fs.find dir = .ok l ∧
      fs.entry? l = some .directory
  · obtain ⟨dir, l, hplace, hf, hd⟩ := hdir
    rw [namesArchived_iff hplace hf hd, ← (names_inDirectory_perm hp hf hd j.id).mem_iff]
    simp only [inArchive, hplace]
  · have hnone : inArchive fs j = [] := by
      unfold inArchive
      split
      · rfl
      next dir hplace =>
        refine inDirectory_of_not ?_ j.id
        rintro ⟨l, hf, hd⟩
        exact hdir ⟨dir, l, hplace, hf, hd⟩
    rw [hnone]
    refine iff_of_false List.not_mem_nil ?_
    rintro ⟨dir, l, hplace, hf, hd, -⟩
    exact hdir ⟨dir, l, hplace, hf, hd⟩

/-- The paths of a listing are those of the regular files at the places of the job, the names in the archive in
the order of their octets, without what repeats the components of an earlier path. The names and the sizes are
those of the files. Neither the order of the names in the directories nor a place that leads nowhere makes a
difference. -/
theorem listed_in_order (hp : fs.Proper) (j : Job) :
    (∃ names : List String,
      (names.Pairwise fun s t => Text.Utf8.encode s < Text.Utf8.encode t) ∧
      (∀ s, s ∈ names ↔ NamesArchived fs j s) ∧
      (resolve fs j).map (fun e => (e.artifact.kind, e.path)) =
        (regularFiles fs j names).eraseDupsBy sameComponents) ∧
    (∀ e ∈ resolve fs j, e.artifact.name = Path.fileName e.path ∧
      fs.fileSize? e.path = some e.artifact.size) ∧
    (∀ fs', fs.Reordered fs' → resolve fs' j = resolve fs j) ∧
    (∀ j' : Job, j'.id = j.id → (∀ key ∈ placeKeys, reached fs j' key = reached fs j key) →
      resolve fs j' = resolve fs j) := by
  have harchive : ((inArchive fs j).map (·.artifact.name)).Pairwise fun s t =>
      Text.Utf8.encode s < Text.Utf8.encode t := by
    unfold inArchive
    split
    · exact .nil
    · exact pairwise_names_inDirectory hp ..
  have hpaths : (resolve fs j).map (fun e => (e.artifact.kind, e.path)) =
      (regularFiles fs j ((inArchive fs j).map (·.artifact.name))).eraseDupsBy sameComponents := by
    have hfirst := map_firstByPath [] (candidates fs j)
    rw [List.filter_eq_self.mpr fun x _ => by simp] at hfirst
    refine (map_resolve fun _ _ => rfl).trans (hfirst.trans (congrArg _ ?_))
    simp only [candidates, List.map_append, map_atPlace, map_inArchive hp, regularFiles]
  refine ⟨⟨_, harchive, fun s => mem_names_inArchive_iff hp, hpaths⟩, fun e he => ?_,
    fun fs' h => resolve_reordered hp h j, fun j' => resolve_congr⟩
  have hb := backed_of_resolve he
  exact ⟨hb.name_eq, hb.size_eq⟩

/-- An output in the archive, a link beside it, and a profile that is missing. -/
theorem listed_in_order_of_link_in_archive :
    let fs : FileSystem := ⟨[(["archive"], .directory), (["archive", "b.csv"], .file [120]),
      (["archive", "c"], .directory), (["archive", "a b.csv"], .link "../d.csv"),
      (["d.csv"], .file [121, 122])], []⟩
    let j := recording (((Dict.empty.insert Metadata.archiveDirKey (.text "archive")).insert
      Metadata.outputPathKey (.text "archive//b.csv")).insert
      Metadata.profilePathKey (.text "profile.json"))
    fs.Proper ∧ fs.Reordered ⟨fs.entries.reverse, []⟩ ∧
      (resolve ⟨fs.entries.reverse, []⟩ j).map (fun e => (e.artifact.kind, e.path)) =
        [(.refined, "/archive//b.csv"), (.archive, "/archive/a b.csv")] := by
  intro fs j
  have hp : fs.Proper := by decide +kernel
  have h : fs.Reordered ⟨fs.entries.reverse, []⟩ := ⟨fs.entries.reverse_perm.symm, rfl⟩
  obtain ⟨⟨names, hsorted, hmem, hpaths⟩, -, hreordered, -⟩ := listed_in_order hp j
  have hplace : placeOf j Metadata.archiveDirKey = some "/archive" := by decide +kernel
  have hf : fs.find "/archive" = .ok ["archive"] := by decide +kernel
  have hregular : (fs.namesIn ["archive"]).filter (fun s => isRegular fs (Path.join "/archive" s)) =
      ["b.csv", "a b.csv"] := by decide +kernel
  have hnames : names = ["a b.csv", "b.csv"] := by
    have hperm : names.Perm ["a b.csv", "b.csv"] := by
      refine (List.perm_ext_iff_of_nodup (hsorted.imp fun h he => ?_) (by decide)).mpr fun s => ?_
      · exact List.lt_irrefl _ (he ▸ h)
      · rw [hmem, namesArchived_iff hplace hf (by decide +kernel), hregular,
          (List.Perm.swap ..).mem_iff]
    refine hperm.eq_of_pairwise (fun s t _ _ hst hts => ?_) hsorted (by decide +kernel)
    exact absurd (List.lt_trans hst hts) (List.lt_irrefl _)
  refine ⟨hp, h, ?_⟩
  rw [hreordered _ h, hpaths, hnames]
  decide +kernel

end Resolved

end JobConsole
