import JobConsole.Artifact.Resolution
import JobConsole.Proofs.Files.Lookup
import JobConsole.Proofs.Keyed
import JobConsole.Proofs.Text.Ascii
import Mathlib.Data.List.Nodup
import Mathlib.Data.List.Perm.Subperm

/-! # Ids of artifacts

An id that is taken gives way to the first of its numbered variants that is free. There are more
variants than taken ids, so one is always found, and no two artifacts of a job have the same id. The
more ids are taken, the later the variant, and an id that stays free stays the choice.
-/

namespace JobConsole.Resolved

variable {taken taken' : List String} {base jobId s : String} {r : Resolved} {rs : List Resolved}

/-! ## Free ids -/

/-- The variants of an id, in the order in which they are tried. -/
def variant (base : String) : Nat → String
  | 0 => base
  | n + 1 => suffixed base (n + 2)

theorem variant_injective (base : String) : Function.Injective (variant base) := by
  have hne (n : Nat) : base ≠ suffixed base n := by
    intro h
    have hl := congrArg (fun s : String => s.toList.length) h
    simp [suffixed] at hl
  intro m n h
  cases m with
  | zero =>
    cases n with
    | zero => rfl
    | succ n => exact absurd h (hne _)
  | succ m =>
    cases n with
    | zero => exact absurd h.symm (hne _)
    | succ n =>
      have hl := congrArg String.toList h
      simp only [variant, suffixed, String.toList_append, Nat.toString_eq_repr, Nat.toList_repr] at hl
      have hn := congrArg (Nat.ofDigitChars 10 · 0) (List.append_cancel_left hl)
      simpa only [Nat.ofDigitChars_ten_toDigits, Nat.add_right_cancel_iff] using hn

theorem exists_freeId (taken : List String) (base : String) :
    ∃ n, freeId taken base = variant base n ∧ variant base n ∉ taken ∧
      ∀ i < n, variant base i ∈ taken := by
  have hall : base :: ((List.range (taken.length + 1)).map (· + 2)).map (suffixed base) =
      (List.range (taken.length + 2)).map (variant base) := by
    rw [List.range_succ_eq_map (n := taken.length + 1), List.map_cons, List.map_map, List.map_map]
    rfl
  have hfree : ∃ n ∈ List.range (taken.length + 2), variant base n ∉ taken := by
    by_contra! h
    have hnodup : ((List.range (taken.length + 2)).map (variant base)).Nodup :=
      List.nodup_range.map (variant_injective base)
    have hsub : (List.range (taken.length + 2)).map (variant base) ⊆ taken := by
      intro s hs
      obtain ⟨n, hn, rfl⟩ := List.mem_map.mp hs
      exact h n hn
    have hle := (hnodup.subperm hsub).length_le
    simp at hle
  obtain ⟨n, hn⟩ : ∃ n, (List.range (taken.length + 2)).find?
      ((fun s => !taken.contains s) ∘ variant base) = some n := by
    obtain ⟨n, hn, hnot⟩ := hfree
    exact Option.isSome_iff_exists.mp (List.find?_isSome.mpr ⟨n, hn, by simpa using hnot⟩)
  obtain ⟨hnot, -, hbefore⟩ := List.find?_range_eq_some.mp hn
  refine ⟨n, ?_, by simpa using hnot, fun i hi => by simpa using hbefore i hi⟩
  rw [freeId, hall, List.find?_map, hn]
  rfl

theorem freeId_notMem (taken : List String) (base : String) : freeId taken base ∉ taken := by
  obtain ⟨n, he, hn, -⟩ := exists_freeId taken base
  exact he ▸ hn

theorem freeId_of_subset (h : taken ⊆ taken') (hn : freeId taken base ∉ taken') :
    freeId taken' base = freeId taken base := by
  obtain ⟨m, hm, -, hbefore⟩ := exists_freeId taken base
  obtain ⟨n, he, hfree, hbefore'⟩ := exists_freeId taken' base
  rw [hm] at hn ⊢
  rw [he]
  rcases Nat.lt_trichotomy m n with hlt | rfl | hgt
  · exact absurd (hbefore' m hlt) hn
  · rfl
  · exact absurd (h (hbefore n hgt)) hfree

theorem isToken_freeId (h : Text.isToken base = true) (taken : List String) :
    Text.isToken (freeId taken base) = true := by
  obtain ⟨n, he, -, -⟩ := exists_freeId taken base
  rw [he]
  cases n with
  | zero => exact h
  | succ n =>
    have hdash : Text.isTokenChar '-' = true := by decide
    have hdigits : ∀ c ∈ (toString (n + 2)).toList, Text.isTokenChar c = true := by
      intro c hc
      rw [Nat.toString_eq_repr, Nat.toList_repr] at hc
      exact Text.isTokenChar_of_isDigit (Nat.isDigit_of_mem_toDigits (by decide) (by decide) hc)
    rw [Text.isToken, List.all_eq_true] at h ⊢
    intro c hc
    simp only [variant, suffixed, String.toList_append, List.mem_append] at hc
    rcases hc with (hc | hc) | hc
    · exact h c hc
    · obtain rfl := List.mem_singleton.mp hc
      exact hdash
    · exact hdigits c hc

/-! ## Ids that have been separated -/

def idOf (r : Resolved) : String := r.artifact.id

def renamed (jobId : String) (r : Resolved) (id : String) : Resolved :=
  { r with artifact := r.artifact.rename jobId id }

/-- An entry whose address is the one of its id. -/
def Addressed (jobId : String) (r : Resolved) : Prop :=
  r.artifact.url = Artifact.urlOf jobId r.artifact.id

/-- An entry that keeps its id is not renamed, which makes no difference. -/
theorem separateIds_cons (hr : Addressed jobId r) (taken : List String) (rs : List Resolved) :
    separateIds jobId taken (r :: rs) =
      renamed jobId r (freeId taken (idOf r)) ::
        separateIds jobId (freeId taken (idOf r) :: taken) rs := by
  obtain ⟨⟨id, name, kind, size, url⟩, path⟩ := r
  simp only [separateIds, idOf]
  split
  next h =>
    rw [renamed, Artifact.rename]
    simp only [h, List.cons.injEq, Resolved.mk.injEq, Artifact.mk.injEq, true_and, and_true]
    exact hr
  · rfl

theorem distinct_separateIds (hr : ∀ r ∈ rs, Addressed jobId r) (taken : List String) :
    ((separateIds jobId taken rs).map idOf).Nodup ∧
      ∀ s ∈ (separateIds jobId taken rs).map idOf, s ∉ taken := by
  induction rs generalizing taken with
  | nil => exact ⟨List.nodup_nil, List.forall_mem_nil _⟩
  | cons r rs ih =>
    obtain ⟨hr, hrs⟩ := List.forall_mem_cons.mp hr
    obtain ⟨hn, hfree⟩ := ih hrs (freeId taken (idOf r) :: taken)
    rw [separateIds_cons hr, List.map_cons]
    refine ⟨List.nodup_cons.mpr ⟨fun hm => hfree _ hm List.mem_cons_self, hn⟩, ?_⟩
    refine List.forall_mem_cons.mpr ⟨freeId_notMem taken (idOf r), fun s hs ht => ?_⟩
    exact hfree s hs (List.mem_cons_of_mem _ ht)

theorem of_mem_separateIds {e : Resolved} (hr : ∀ r ∈ rs, Addressed jobId r)
    (h : e ∈ separateIds jobId taken rs) :
    ∃ r ∈ rs, ∃ taken', e = renamed jobId r (freeId taken' (idOf r)) := by
  induction rs generalizing taken with
  | nil => cases h
  | cons r rs ih =>
    obtain ⟨hr, hrs⟩ := List.forall_mem_cons.mp hr
    rw [separateIds_cons hr] at h
    rcases List.mem_cons.mp h with rfl | h
    · exact ⟨r, List.mem_cons_self, taken, rfl⟩
    · obtain ⟨r', hr', taken', he⟩ := ih hrs h
      exact ⟨r', List.mem_cons_of_mem _ hr', taken', he⟩

theorem exists_mem_separateIds (hr : ∀ r ∈ rs, Addressed jobId r) (taken : List String)
    (h : r ∈ rs) : ∃ id, renamed jobId r id ∈ separateIds jobId taken rs := by
  induction rs generalizing taken with
  | nil => cases h
  | cons r' rs ih =>
    obtain ⟨hr, hrs⟩ := List.forall_mem_cons.mp hr
    rw [separateIds_cons hr]
    rcases List.mem_cons.mp h with rfl | h
    · exact ⟨_, List.mem_cons_self⟩
    · obtain ⟨id, hid⟩ := ih hrs _ h
      exact ⟨id, List.mem_cons_of_mem _ hid⟩

theorem map_separateIds {β : Type} {f : Resolved → β} (hf : ∀ r id, f (renamed jobId r id) = f r)
    (hr : ∀ r ∈ rs, Addressed jobId r) (taken : List String) :
    (separateIds jobId taken rs).map f = rs.map f := by
  induction rs generalizing taken with
  | nil => rfl
  | cons r rs ih =>
    obtain ⟨hr, hrs⟩ := List.forall_mem_cons.mp hr
    rw [separateIds_cons hr, List.map_cons, List.map_cons, hf, ih hrs]

/-! ## Entries of a resolution -/

/-- An entry of which everything is as the file behind it says. -/
structure Backed (fs : FileSystem) (jobId : String) (r : Resolved) : Prop where
  addressed : Addressed jobId r
  isToken : Text.isToken r.artifact.id = true
  id_ne_empty : r.artifact.id ≠ ""
  name_eq : r.artifact.name = Path.fileName r.path
  size_eq : fs.fileSize? r.path = some r.artifact.size

variable {fs : FileSystem} {j : Job} {kind : ArtifactKind} {p : String}

theorem isToken_idOf (kind : ArtifactKind) (fileName : String) :
    Text.isToken (Artifact.idOf kind fileName) = true := by
  have hkind : kind.name.toList.all Text.isTokenChar = true := by cases kind <;> decide
  have hname := Text.isToken_toToken fileName
  rw [Text.isToken] at hname ⊢
  rw [Artifact.idOf, String.toList_append, String.toList_append, List.all_append, List.all_append,
    hkind, hname]
  rfl

theorem backed_of_ofFile? (h : ofFile? fs jobId kind p = some r) :
    Backed fs jobId r ∧ r.path = p := by
  obtain ⟨n, hn, rfl⟩ := Option.map_eq_some_iff.mp h
  refine ⟨⟨rfl, isToken_idOf kind _, ?_, rfl, hn⟩, rfl⟩
  simp [Artifact.build, Artifact.idOf]

theorem Backed.renamed (h : Backed fs jobId r) (taken : List String) :
    Backed fs jobId (renamed jobId r (freeId taken (idOf r))) := by
  refine ⟨rfl, isToken_freeId h.isToken taken, fun he => ?_, h.name_eq, h.size_eq⟩
  obtain ⟨n, hn, -, -⟩ := exists_freeId taken (idOf r)
  have hv : variant (idOf r) n = "" := hn.symm.trans he
  cases n with
  | zero => exact h.id_ne_empty hv
  | succ n => simp [variant, suffixed] at hv

def placeKeys : List String :=
  [Metadata.outputPathKey, Metadata.archiveDirKey, Metadata.profilePathKey,
    Metadata.contractPathKey]

/-- Where a job is looked through: at the places of its outputs, and under the names in its archive. -/
inductive LooksAt (fs : FileSystem) (j : Job) : ArtifactKind → String → Prop where
  | place {kind : ArtifactKind} {key p : String} (hk : key ∈ placeKeys)
      (hp : placeOf j key = some p) : LooksAt fs j kind p
  | archive {dir s : String} {l : Location} (hp : placeOf j Metadata.archiveDirKey = some dir)
      (hf : fs.find dir = .ok l) (hd : fs.entry? l = some .directory) (hs : s ∈ fs.namesIn l) :
      LooksAt fs j .archive (Path.join dir s)

theorem ofFile?_of_mem_atPlace {key : String} (h : r ∈ atPlace fs j kind key) :
    ∃ p, placeOf j key = some p ∧ ofFile? fs j.id kind p = some r :=
  Option.bind_eq_some_iff.mp (Option.mem_toList.mp h)

theorem ofFile?_of_mem_inArchive (h : r ∈ inArchive fs j) :
    ∃ p, LooksAt fs j .archive p ∧ ofFile? fs j.id .archive p = some r := by
  unfold inArchive inDirectory at h
  split at h
  · cases h
  next dir hp =>
    split at h
    · cases h
    next names hn =>
      obtain ⟨l, hf, hd, rfl⟩ := FileSystem.readDirectory_eq_ok_iff.mp hn
      obtain ⟨s, hs, hr⟩ := List.mem_filterMap.mp (List.mem_mergeSort.mp h)
      exact ⟨_, .archive hp hf hd hs, hr⟩

theorem ofFile?_of_mem_candidates (h : r ∈ candidates fs j) :
    ∃ kind p, LooksAt fs j kind p ∧ ofFile? fs j.id kind p = some r := by
  have at_place {kind : ArtifactKind} {key : String} (hk : key ∈ placeKeys)
      (h : r ∈ atPlace fs j kind key) :
      ∃ kind p, LooksAt fs j kind p ∧ ofFile? fs j.id kind p = some r := by
    obtain ⟨p, hp, hr⟩ := ofFile?_of_mem_atPlace h
    exact ⟨kind, p, .place hk hp, hr⟩
  simp only [candidates, List.mem_append] at h
  rcases h with ((h | h) | h) | h
  · exact at_place (by simp [placeKeys]) h
  · obtain ⟨p, hp, hr⟩ := ofFile?_of_mem_inArchive h
    exact ⟨.archive, p, hp, hr⟩
  · exact at_place (by simp [placeKeys]) h
  · exact at_place (by simp [placeKeys]) h

theorem backed_of_candidates (h : r ∈ candidates fs j) : Backed fs j.id r := by
  obtain ⟨kind, p, -, hr⟩ := ofFile?_of_mem_candidates h
  exact (backed_of_ofFile? hr).1

theorem firstByPath_sublist (seen : List (List Path.Component)) (rs : List Resolved) :
    (firstByPath seen rs).Sublist rs := by
  induction rs generalizing seen with
  | nil => exact .slnil
  | cons r rs ih =>
    simp only [firstByPath]
    split
    · exact (ih seen).cons r
    · exact (ih _).cons_cons r

theorem backed_of_firstByPath (h : r ∈ firstByPath [] (candidates fs j)) : Backed fs j.id r :=
  backed_of_candidates ((firstByPath_sublist [] _).subset h)

theorem addressed_of_firstByPath : ∀ r ∈ firstByPath [] (candidates fs j), Addressed j.id r :=
  fun _ hr => (backed_of_firstByPath hr).addressed

theorem backed_of_resolve (h : r ∈ resolve fs j) : Backed fs j.id r := by
  obtain ⟨r', hr', taken, rfl⟩ :=
    of_mem_separateIds addressed_of_firstByPath h
  exact (backed_of_firstByPath hr').renamed taken

theorem nodup_resolve (fs : FileSystem) (j : Job) : ((resolve fs j).map idOf).Nodup :=
  (distinct_separateIds addressed_of_firstByPath []).1

def recording (m : Metadata) : Job :=
  .new "j" ["true"] "/" { JobOptions.none with metadata := m } 4 default

theorem locate_eq_some_iff {e : Resolved} {id : String} :
    locate fs j id = some e ↔ e ∈ resolve fs j ∧ idOf e = id := by
  constructor
  · exact fun h => ⟨List.mem_of_find?_eq_some h, Keyed.key_of_find? h⟩
  · rintro ⟨h, rfl⟩
    exact Keyed.find?_of_mem (nodup_resolve fs j) h

end JobConsole.Resolved
