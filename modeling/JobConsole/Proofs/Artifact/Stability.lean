import JobConsole.Proofs.Artifact.Places
import JobConsole.Proofs.Artifact.Repetition

/-! # Artifacts that stay

Where files are added, every artifact that was found is found again, with the same file behind it, and no
id that was announced is given up. An announced id still leads to the same file as long as no file that
was added has got it; a file that was added gets it if it comes first in the order of names and its name
has the same token characters.
-/

namespace JobConsole.Resolved

open FileSystem (Grows Proper)

variable {fs fs' : FileSystem} {j : Job} {kind : ArtifactKind} {jobId p dir : String} {r : Resolved}
  {rs : List Resolved}

/-! ## Candidates -/

def present (fs : FileSystem) (r : Resolved) : Bool := (fs.readFile r.path).isSome

theorem ofFile?_eq_filter (h : fs.Grows fs') (jobId : String) (kind : ArtifactKind) (p : String) :
    ofFile? fs jobId kind p = (ofFile? fs' jobId kind p).filter (present fs) := by
  simp only [ofFile?, FileSystem.fileSize?]
  cases hr : fs.readFile p with
  | some content =>
    rw [h.toExtends.readFile hr]
    simp [Option.filter, present, hr]
  | none =>
    cases hr' : fs'.readFile p with
    | none => rfl
    | some content => simp [Option.filter, present, hr]

theorem atPlace_eq_filter (h : fs.Grows fs') (j : Job) (kind : ArtifactKind) (key : String) :
    atPlace fs j kind key = (atPlace fs' j kind key).filter (present fs) := by
  simp only [atPlace]
  cases placeOf j key with
  | none => rfl
  | some p =>
    rw [Option.bind_some, Option.bind_some, ofFile?_eq_filter h, Option.toList_filter]

theorem namesIn_perm_filter (hp : fs.Proper) (hp' : fs'.Proper) (h : fs.Grows fs') (l : Location) :
    (fs.namesIn l).Perm ((fs'.namesIn l).filter fun s => decide (s ∈ fs.namesIn l)) := by
  refine (List.perm_ext_iff_of_nodup (hp.nodup_namesIn l) ((hp'.nodup_namesIn l).filter _)).mpr ?_
  intro s
  have hsub : s ∈ fs.namesIn l → s ∈ fs'.namesIn l := by
    rw [FileSystem.mem_namesIn_iff, FileSystem.mem_namesIn_iff]
    intro hs
    obtain ⟨e, he⟩ := Option.isSome_iff_exists.mp hs
    rw [h.within _ _ he]
    rfl
  simpa using hsub

theorem inDirectory_eq_filter (hp : fs.Proper) (hp' : fs'.Proper) (h : fs.Grows fs')
    (jobId dir : String) :
    inDirectory fs jobId dir = (inDirectory fs' jobId dir).filter (present fs) := by
  by_cases hdir : ∃ l, fs.find dir = .ok l ∧ fs.entry? l = some .directory
  · obtain ⟨l, hf, hd⟩ := hdir
    obtain ⟨hf', hd'⟩ := h.directory_iff.mpr ⟨hf, hd⟩
    let old (s : String) := ofFile? fs jobId .archive (Path.join dir s)
    let new (s : String) := ofFile? fs' jobId .archive (Path.join dir s)
    -- what is found under a name that is not old is left out
    have hfilter : ((fs'.namesIn l).filterMap new).filter (present fs) =
        ((fs'.namesIn l).filter fun s => decide (s ∈ fs.namesIn l)).filterMap old := by
      rw [List.filter_filterMap, List.filterMap_filter]
      refine List.filterMap_congr fun s hs => ?_
      have hold : (new s).filter (present fs) = old s := (ofFile?_eq_filter h jobId _ _).symm
      rw [hold]
      split
      · rfl
      next hn =>
        have hnone := FileSystem.readFile_join_of_notMem hf (hp'.isName hs) (by simpa using hn)
        simp only [old, ofFile?, FileSystem.fileSize?, hnone]
        rfl
    have hold : ((fs.namesIn l).filterMap old).Perm
        (((fs'.namesIn l).filterMap new).filter (present fs)) :=
      hfilter ▸ (namesIn_perm_filter hp hp' h l).filterMap _
    refine inDirectory_eq_of_perm hp hf hd ?_ ((pairwise_inDirectory ..).filter _)
    rw [inDirectory_of_find hf' hd']
    exact hold.trans ((List.mergeSort_perm _ _).filter _).symm
  · have hdir' : ¬∃ l, fs'.find dir = .ok l ∧ fs'.entry? l = some .directory := by
      simpa only [h.directory_iff] using hdir
    rw [inDirectory_of_not hdir, inDirectory_of_not hdir']
    rfl

theorem candidates_eq_filter (hp : fs.Proper) (hp' : fs'.Proper) (h : fs.Grows fs') (j : Job) :
    candidates fs j = (candidates fs' j).filter (present fs) := by
  have harchive : inArchive fs j = (inArchive fs' j).filter (present fs) := by
    unfold inArchive
    split
    · rfl
    · exact inDirectory_eq_filter hp hp' h ..
  simp only [candidates, List.filter_append, harchive, atPlace_eq_filter h]

/-! ## Paths that repeat -/

/-- What is left out by a property of paths can be left out before repetitions are. -/
theorem firstByPath_filter {f : Resolved → Bool} {seen seen' : List (List Path.Component)}
    (hs : seen ⊆ seen')
    (hn : ∀ c ∈ seen', c ∉ seen → ∀ r ∈ rs, Path.components r.path = c → f r = false)
    (hf : ∀ r ∈ rs, ∀ r' ∈ rs, Path.components r.path = Path.components r'.path → f r = f r') :
    firstByPath seen (rs.filter f) = (firstByPath seen' rs).filter f := by
  induction rs generalizing seen seen' with
  | nil => rfl
  | cons r rs ih =>
    have hn' (c) (hc : c ∈ seen') (hc' : c ∉ seen) := (List.forall_mem_cons.mp (hn c hc hc')).2
    have hf' (r') (hr : r' ∈ rs) (r'') (hr' : r'' ∈ rs) :=
      hf r' (List.mem_cons_of_mem r hr) r'' (List.mem_cons_of_mem r hr')
    by_cases hr : f r = true
    · rw [List.filter_cons_of_pos hr]
      by_cases hseen : Path.components r.path ∈ seen
      · rw [firstByPath_of_mem hseen, firstByPath_of_mem (hs hseen)]
        exact ih hs hn' hf'
      · have hseen' : Path.components r.path ∉ seen' := fun hm => by
          simp [hn _ hm hseen r List.mem_cons_self rfl] at hr
        rw [firstByPath_of_notMem hseen, firstByPath_of_notMem hseen', List.filter_cons_of_pos hr]
        refine congrArg (r :: ·) (ih (List.cons_subset_cons _ hs) (fun c hc hc' => ?_) hf')
        obtain ⟨hne, hc'⟩ := not_or.mp (mt List.mem_cons.mpr hc')
        exact hn' c ((List.mem_cons.mp hc).resolve_left hne) hc'
    · rw [List.filter_cons_of_neg hr]
      by_cases hseen' : Path.components r.path ∈ seen'
      · rw [firstByPath_of_mem hseen']
        exact ih hs hn' hf'
      · rw [firstByPath_of_notMem hseen', List.filter_cons_of_neg hr]
        -- the entry is seen on one side only, and what repeats it is left out as well
        refine ih (List.subset_cons_of_subset _ hs) (fun c hc hc' => ?_) hf'
        rcases List.mem_cons.mp hc with rfl | hc
        · intro r' hr' he
          rw [hf r' (List.mem_cons_of_mem r hr') r List.mem_cons_self he]
          simpa using hr
        · exact hn' c hc hc'

theorem present_congr (h : fs.Grows fs') {r r' : Resolved} (hr : r ∈ candidates fs' j)
    (hr' : r' ∈ candidates fs' j) (hc : Path.components r.path = Path.components r'.path) :
    present fs r = present fs r' := by
  have at_place {r : Resolved} (hr : r ∈ candidates fs' j) : ∃ l, fs'.find r.path = .ok l ∧
      ((fs.readFile r.path).isSome ↔ (fs.entry? l).isSome) := by
    obtain ⟨content, hread, -⟩ := Option.map_eq_some_iff.mp (backed_of_candidates hr).size_eq
    obtain ⟨l, hl, he⟩ := FileSystem.readFile_eq_some_iff.mp hread
    exact ⟨l, hl, h.isSome_readFile_iff hl he⟩
  obtain ⟨l, hl, hold⟩ := at_place hr
  obtain ⟨l', hl', hold'⟩ := at_place hr'
  obtain rfl := FileSystem.find_congr hc hl hl'
  rw [present, present, Bool.eq_iff_iff, hold, hold']

theorem firstByPath_eq_filter (hp : fs.Proper) (hp' : fs'.Proper) (h : fs.Grows fs') (j : Job) :
    firstByPath [] (candidates fs j) = (firstByPath [] (candidates fs' j)).filter (present fs) := by
  rw [candidates_eq_filter hp hp' h]
  exact firstByPath_filter (List.Subset.refl _) (fun c hc hn => absurd hc hn)
    fun r hr r' hr' hc => present_congr h hr hr' hc

/-! ## Ids where more is numbered -/

section Numbering

variable {taken taken' : List String} {f : Resolved → Bool}

theorem freeId_mem_cons (h : taken ⊆ taken') (base : String) :
    freeId taken base ∈ freeId taken' base :: taken' := by
  by_cases hn : freeId taken base ∈ taken'
  · exact List.mem_cons_of_mem _ hn
  · exact freeId_of_subset h hn ▸ List.mem_cons_self

/-- An id that was given is given again, unless it was taken before. -/
theorem ids_separateIds_filter (hr : ∀ r ∈ rs, Addressed jobId r) (h : taken ⊆ taken') :
    ∀ s ∈ (separateIds jobId taken (rs.filter f)).map idOf,
      s ∈ (separateIds jobId taken' rs).map idOf ∨ s ∈ taken' := by
  induction rs generalizing taken taken' with
  | nil => exact List.forall_mem_nil _
  | cons r rs ih =>
    obtain ⟨hr, hrs⟩ := List.forall_mem_cons.mp hr
    have shift {s : String} (hs : s ∈ (separateIds jobId
          (freeId taken' (idOf r) :: taken') rs).map idOf ∨ s ∈ freeId taken' (idOf r) :: taken') :
        s ∈ (separateIds jobId taken' (r :: rs)).map idOf ∨ s ∈ taken' := by
      rw [separateIds_cons hr, List.map_cons, List.mem_cons]
      rcases hs with hs | hs
      · exact .inl (.inr hs)
      · exact (List.mem_cons.mp hs).imp_left .inl
    by_cases hf : f r = true
    · rw [List.filter_cons_of_pos hf, separateIds_cons hr, List.map_cons]
      have hid := freeId_mem_cons h (idOf r)
      refine List.forall_mem_cons.mpr ⟨shift (.inr hid), fun s hs => shift ?_⟩
      exact ih hrs (List.cons_subset.mpr ⟨hid, List.subset_cons_of_subset _ h⟩) s hs
    · rw [List.filter_cons_of_neg hf]
      exact fun s hs => shift (ih hrs (List.subset_cons_of_subset _ h) s hs)

/-- Entries that are added change no id if they get none that was given. -/
theorem separateIds_filter (hr : ∀ r ∈ rs, Addressed jobId r)
    (hf : ∀ r id, f (renamed jobId r id) = f r) (h : taken ⊆ taken')
    (hfree : ∀ s ∈ taken', s ∉ taken → s ∉ (separateIds jobId taken (rs.filter f)).map idOf)
    (hnew : ∀ e ∈ separateIds jobId taken' rs, f e = false →
      idOf e ∉ (separateIds jobId taken (rs.filter f)).map idOf) :
    separateIds jobId taken (rs.filter f) = (separateIds jobId taken' rs).filter f := by
  induction rs generalizing taken taken' with
  | nil => rfl
  | cons r rs ih =>
    obtain ⟨hr, hrs⟩ := List.forall_mem_cons.mp hr
    rw [separateIds_cons hr] at hnew ⊢
    obtain ⟨hhead, htail⟩ := List.forall_mem_cons.mp hnew
    by_cases hfr : f r = true
    · rw [List.filter_cons_of_pos hfr, separateIds_cons hr] at hfree htail ⊢
      rw [List.map_cons] at hfree htail
      have hid : freeId taken' (idOf r) = freeId taken (idOf r) := by
        refine freeId_of_subset h fun hm => ?_
        exact hfree _ hm (freeId_notMem taken (idOf r)) List.mem_cons_self
      rw [hid] at htail ⊢
      rw [List.filter_cons_of_pos (by rw [hf, hfr])]
      refine congrArg (_ :: ·) (ih hrs (List.cons_subset_cons _ h) (fun s hs hn hm => ?_) ?_)
      · obtain ⟨hne, hn⟩ := not_or.mp (mt List.mem_cons.mpr hn)
        exact hfree s ((List.mem_cons.mp hs).resolve_left hne) hn (List.mem_cons_of_mem _ hm)
      · exact fun e he hfe hm => htail e he hfe (List.mem_cons_of_mem _ hm)
    · have hfr : f r = false := by simpa using hfr
      rw [List.filter_cons_of_neg (by simp [hfr])] at hhead hfree htail ⊢
      rw [List.filter_cons_of_neg (by rw [hf, hfr]; decide)]
      refine ih hrs (List.subset_cons_of_subset _ h) (fun s hs hn => ?_) htail
      rcases List.mem_cons.mp hs with rfl | hs
      · exact hhead ((hf r _).trans hfr)
      · exact hfree s hs hn

end Numbering

/-! ## Resolutions of a file system that grows -/

/-- Where files are added, every artifact is found again with the file behind it, and every id that was
announced is still the id of an artifact. The announced ids lead to the same artifacts just when none of
them is the id of a file that was added. -/
theorem artifacts_stay (hp : fs.Proper) (hp' : fs'.Proper) (h : fs.Grows fs') (j : Job) :
    (∀ e ∈ resolve fs j, ∃ e' ∈ resolve fs' j, e'.path = e.path ∧
      e'.artifact.name = e.artifact.name ∧ e'.artifact.kind = e.artifact.kind ∧
      e'.artifact.size = e.artifact.size) ∧
    (∀ e ∈ resolve fs j, ∃ e', locate fs' j e.artifact.id = some e') ∧
    ((∀ e ∈ resolve fs j, locate fs' j e.artifact.id = some e) ↔
      ∀ e' ∈ resolve fs' j, fs.readFile e'.path = none →
        ∀ e ∈ resolve fs j, e.artifact.id ≠ e'.artifact.id) := by
  have haddressed : ∀ r ∈ firstByPath [] (candidates fs' j), Addressed j.id r :=
    addressed_of_firstByPath
  have hsame := firstByPath_eq_filter hp hp' h j
  have hold : resolve fs j =
      separateIds j.id [] ((firstByPath [] (candidates fs' j)).filter (present fs)) := by
    rw [resolve, hsame]
  refine ⟨fun e he => ?_, fun e he => ?_, fun hstay e' he' hnone e he hid => ?_, fun hnew e he => ?_⟩
  · obtain ⟨r, hr, taken, rfl⟩ := of_mem_separateIds addressed_of_firstByPath he
    rw [hsame] at hr
    obtain ⟨id, hid⟩ := exists_mem_separateIds haddressed [] (List.mem_filter.mp hr).1
    exact ⟨_, hid, rfl, rfl, rfl, rfl⟩
  · have hmem : idOf e ∈ (resolve fs j).map idOf := List.mem_map_of_mem he
    rw [hold] at hmem
    have hid := (ids_separateIds_filter haddressed (List.Subset.refl []) _ hmem).resolve_right
      List.not_mem_nil
    obtain ⟨e', he', heq⟩ := List.mem_map.mp hid
    exact ⟨e', locate_eq_some_iff.mpr ⟨he', heq⟩⟩
  · have hmem := (locate_eq_some_iff.mp (hstay e he)).1
    obtain rfl := List.inj_on_of_nodup_map (nodup_resolve fs' j) hmem he' hid
    have hsize := (backed_of_resolve he).size_eq
    simp [FileSystem.fileSize?, hnone] at hsize
  · have hfilter : resolve fs j = (resolve fs' j).filter (present fs) := by
      rw [hold, resolve]
      refine separateIds_filter haddressed (fun _ _ => rfl) (List.Subset.refl [])
        (fun _ hs => absurd hs List.not_mem_nil) fun e' he' hnot hm => ?_
      rw [← hold] at hm
      obtain ⟨e, he, hid⟩ := List.mem_map.mp hm
      exact hnew e' he' (by simpa [present] using hnot) e he hid
    have hmem := he
    rw [hfilter] at hmem
    exact locate_eq_some_iff.mpr ⟨(List.mem_filter.mp hmem).1, rfl⟩

def archiving (m : Metadata) : Job :=
  .new "j" ["true"] "/"
    { JobOptions.none with metadata := m.insert Metadata.archiveDirKey (.text "archive") } 4 default

/-- A profile that is written later leaves the ids as they are. -/
theorem artifacts_stay_of_profile :
    let fs : FileSystem := ⟨[(["archive"], .directory), (["archive", "a.csv"], .file [120])], []⟩
    let fs' := fs.set ["profile.json"] (.file [121])
    let j := archiving (Dict.empty.insert Metadata.profilePathKey (.text "profile.json"))
    fs.Proper ∧ fs'.Proper ∧ fs.Grows fs' ∧
      (∃ e ∈ resolve fs j, e.artifact.id = "archive-a.csv") ∧
      (∃ e' ∈ resolve fs' j, e'.artifact.id = "profile-profile.json") ∧
      ∀ e ∈ resolve fs j, locate fs' j e.artifact.id = some e := by
  intro fs fs' j
  have hp : fs.Proper := by decide +kernel
  have hp' : fs'.Proper := by decide +kernel
  have h : fs.Grows fs' := FileSystem.grows_set (by decide +kernel) _
  obtain ⟨-, -, hiff⟩ := artifacts_stay hp hp' h j
  exact ⟨hp, hp', h, by decide +kernel, by decide +kernel, hiff.mpr (by decide +kernel)⟩

/-- A file that comes earlier by its name, and has the same token characters, gets the id. -/
theorem artifact_displaced_of_same_token :
    let fs : FileSystem := ⟨[(["archive"], .directory), (["archive", "a_b.csv"], .file [120])], []⟩
    let fs' := fs.set ["archive", "a b.csv"] (.file [121])
    let j := archiving Dict.empty
    fs.Proper ∧ fs'.Proper ∧ fs.Grows fs' ∧
      (locate fs j "archive-a_b.csv").map (·.path) = some "/archive/a_b.csv" ∧
      (locate fs' j "archive-a_b.csv").map (·.path) = some "/archive/a b.csv" := by
  intro fs fs' j
  refine ⟨by decide +kernel, by decide +kernel, FileSystem.grows_set (by decide +kernel) _, ?_, ?_⟩
  · decide +kernel
  let old : Resolved := ⟨.build "j" .archive "a_b.csv" 1, "/archive/a_b.csv"⟩
  let new : Resolved := ⟨.build "j" .archive "a b.csv" 1, "/archive/a b.csv"⟩
  have hsorted : inDirectory fs' "j" "/archive" = [new, old] := by
    have hfound : ((fs'.namesIn ["archive"]).filterMap fun s =>
        ofFile? fs' "j" .archive (Path.join "/archive" s)) = [old, new] := by decide +kernel
    rw [inDirectory_of_find (l := ["archive"]) (by decide +kernel) (by decide +kernel), hfound]
    refine (eq_of_pairwise_byName ?_ (by decide +kernel) (pairwise_byName _) (by decide +kernel)).symm
    exact (List.Perm.swap old new []).trans (List.mergeSort_perm [old, new] byName).symm
  have hplace : placeOf j Metadata.archiveDirKey = some "/archive" := by decide +kernel
  have hcandidates : candidates fs' j = [new, old] := by
    simp only [candidates, inArchive, hplace]
    rw [show j.id = "j" from rfl, hsorted]
    decide +kernel
  rw [locate, resolve, hcandidates]
  decide +kernel

end JobConsole.Resolved
