import JobConsole.Proofs.Artifact.Ids
import JobConsole.Proofs.Files.Plain

/-! # Files that are listed once

Of the candidates for a listing those are left out that repeat the components of an earlier path. Paths with
the same components lead to one file, so no file is lost. A file is listed twice where two paths that lead to
it have different components, as they may have behind a link or a double dot.
-/

namespace JobConsole.Resolved

variable {fs : FileSystem} {j : Job} {r : Resolved} {rs : List Resolved}
  {seen : List (List Path.Component)}

def componentsOf (r : Resolved) : List Path.Component := Path.components r.path

/-! ## Paths that are left out -/

theorem firstByPath_of_mem {seen : List (List Path.Component)}
    (h : Path.components r.path ∈ seen) : firstByPath seen (r :: rs) = firstByPath seen rs :=
  if_pos (List.contains_iff_mem.mpr h)

theorem firstByPath_of_notMem {seen : List (List Path.Component)}
    (h : Path.components r.path ∉ seen) :
    firstByPath seen (r :: rs) = r :: firstByPath (Path.components r.path :: seen) rs :=
  if_neg (mt List.contains_iff_mem.mp h)

/-- What is left out has the components of something that is kept, or that was seen before. -/
theorem mem_components_firstByPath {c : List Path.Component} :
    c ∈ (firstByPath seen rs).map componentsOf ↔ c ∈ rs.map componentsOf ∧ c ∉ seen := by
  induction rs generalizing seen with
  | nil => simp [firstByPath]
  | cons r rs ih =>
    simp only [firstByPath, List.contains_iff_mem]
    split
    next hr =>
      have hne : c ∉ seen → c ≠ componentsOf r := fun hc he => hc (he ▸ hr)
      rw [ih, List.map_cons, List.mem_cons]
      constructor
      · exact fun h => ⟨.inr h.1, h.2⟩
      · exact fun h => ⟨h.1.resolve_left (hne h.2), h.2⟩
    next hr =>
      rw [List.map_cons, List.mem_cons, ih, List.mem_cons, List.map_cons, List.mem_cons]
      constructor
      · rintro (rfl | ⟨hc, hs⟩)
        · exact ⟨.inl rfl, hr⟩
        · exact ⟨.inr hc, fun hm => hs (.inr hm)⟩
      · rintro ⟨hc, hs⟩
        by_cases he : c = componentsOf r
        · exact .inl he
        · exact .inr ⟨hc.resolve_left he, not_or.mpr ⟨he, hs⟩⟩

theorem nodup_firstByPath (seen : List (List Path.Component)) (rs : List Resolved) :
    ((firstByPath seen rs).map componentsOf).Nodup := by
  induction rs generalizing seen with
  | nil => exact List.nodup_nil
  | cons r rs ih =>
    simp only [firstByPath]
    split
    · exact ih seen
    · refine List.nodup_cons.mpr ⟨fun hm => ?_, ih _⟩
      exact (mem_components_firstByPath.mp hm).2 List.mem_cons_self

theorem exists_mem_firstByPath (h : r ∈ rs) :
    ∃ k ∈ firstByPath [] rs, Path.components k.path = Path.components r.path :=
  List.mem_map.mp (mem_components_firstByPath.mpr ⟨List.mem_map_of_mem h, List.not_mem_nil⟩)

/-! ## Paths of a resolution -/

theorem map_resolve {β : Type} {f : Resolved → β} (hf : ∀ r id, f (renamed j.id r id) = f r) :
    (resolve fs j).map f = (firstByPath [] (candidates fs j)).map f :=
  map_separateIds hf addressed_of_firstByPath []

theorem Backed.exists_find {jobId : String} (h : Backed fs jobId r) :
    ∃ l, fs.find r.path = .ok l := by
  obtain ⟨content, hr, -⟩ := Option.map_eq_some_iff.mp h.size_eq
  obtain ⟨l, hl, -⟩ := FileSystem.readFile_eq_some_iff.mp hr
  exact ⟨l, hl⟩

theorem find_eq_of_components {r' : Resolved} (hr : r ∈ candidates fs j)
    (hr' : r' ∈ candidates fs j) (hc : Path.components r.path = Path.components r'.path) :
    fs.find r.path = fs.find r'.path := by
  obtain ⟨l, hl⟩ := (backed_of_candidates hr).exists_find
  obtain ⟨l', hl'⟩ := (backed_of_candidates hr').exists_find
  rw [hl, hl', FileSystem.find_congr hc hl hl']

theorem LooksAt.plain {kind : ArtifactKind} {p : String} (h : LooksAt fs j kind p)
    (hfs : fs.Proper) (hp : ∀ key ∈ placeKeys, ∀ p, placeOf j key = some p → Path.Plain p) :
    Path.Plain p := by
  cases h with
  | place hk h => exact hp _ hk _ h
  | archive h _ _ hs => exact (hp _ (by simp [placeKeys]) _ h).join (hfs.isName hs)

theorem components_eq_of_linkless {r' : Resolved} (hfs : fs.Proper) (hlinks : fs.Linkless)
    (hp : ∀ key ∈ placeKeys, ∀ p, placeOf j key = some p → Path.Plain p)
    (hr : r ∈ candidates fs j) (hr' : r' ∈ candidates fs j)
    (hf : fs.find r.path = fs.find r'.path) :
    Path.components r.path = Path.components r'.path := by
  have plain {r : Resolved} (hr : r ∈ candidates fs j) : Path.Plain r.path := by
    obtain ⟨kind, p, hp', h⟩ := ofFile?_of_mem_candidates hr
    exact (backed_of_ofFile? h).2 ▸ hp'.plain hfs hp
  obtain ⟨l, hl⟩ := (backed_of_candidates hr).exists_find
  exact FileSystem.components_eq_of_find hlinks (plain hr) (plain hr') hl (hf ▸ hl)

/-- Every file that a place of a job leads to is listed, and no two entries have the same components. No file
is listed twice just when all paths that lead to one file have the same components; that is so where the
places are plain and there are no links. -/
theorem listed_once_iff (fs : FileSystem) (j : Job) :
    (∀ r ∈ candidates fs j, ∃ e ∈ resolve fs j, fs.find e.path = fs.find r.path) ∧
    ((resolve fs j).map fun e => Path.components e.path).Nodup ∧
    (((resolve fs j).map fun e => fs.find e.path).Nodup ↔
      ∀ r ∈ candidates fs j, ∀ r' ∈ candidates fs j, fs.find r.path = fs.find r'.path →
        Path.components r.path = Path.components r'.path) ∧
    (fs.Proper → fs.Linkless →
      (∀ key ∈ placeKeys, ∀ p, placeOf j key = some p → Path.Plain p) →
        ((resolve fs j).map fun e => fs.find e.path).Nodup) := by
  have hcomponents : ((resolve fs j).map fun e => Path.components e.path) =
      (firstByPath [] (candidates fs j)).map componentsOf := map_resolve fun _ _ => rfl
  have hfind : ((resolve fs j).map fun e => fs.find e.path) =
      (firstByPath [] (candidates fs j)).map fun e => fs.find e.path := map_resolve fun _ _ => rfl
  have hsub {k : Resolved} (hk : k ∈ firstByPath [] (candidates fs j)) : k ∈ candidates fs j :=
    (firstByPath_sublist [] _).subset hk
  have hnodup := nodup_firstByPath [] (candidates fs j)
  have honce : ((resolve fs j).map fun e => fs.find e.path).Nodup ↔
      ∀ r ∈ candidates fs j, ∀ r' ∈ candidates fs j, fs.find r.path = fs.find r'.path →
        Path.components r.path = Path.components r'.path := by
    rw [hfind]
    constructor
    · intro hn r hr r' hr' hf
      obtain ⟨k, hk, hc⟩ := exists_mem_firstByPath hr
      obtain ⟨k', hk', hc'⟩ := exists_mem_firstByPath hr'
      have hkk : fs.find k.path = fs.find k'.path := by
        rw [find_eq_of_components (hsub hk) hr hc, hf, find_eq_of_components (hsub hk') hr' hc']
      obtain rfl := List.inj_on_of_nodup_map hn hk hk' hkk
      exact hc.symm.trans hc'
    · intro h
      refine hnodup.of_map.map_on fun k hk k' hk' hf => ?_
      exact List.inj_on_of_nodup_map hnodup hk hk' (h k (hsub hk) k' (hsub hk') hf)
  refine ⟨fun r hr => ?_, hcomponents ▸ hnodup, honce, fun hfs hlinks hp => ?_⟩
  · obtain ⟨k, hk, hc⟩ := exists_mem_firstByPath hr
    have hm : fs.find k.path ∈ (resolve fs j).map fun e => fs.find e.path :=
      hfind ▸ List.mem_map_of_mem hk
    obtain ⟨e, he, hke⟩ := List.mem_map.mp hm
    exact ⟨e, he, hke.trans (find_eq_of_components (hsub hk) hr hc)⟩
  · exact honce.mpr fun r hr r' hr' hf => components_eq_of_linkless hfs hlinks hp hr hr' hf

/-- An output in the archive is listed once where both are written plainly. -/
theorem listed_once_iff_of_output_in_archive :
    let fs : FileSystem := ⟨[(["archive"], .directory), (["archive", "out.csv"], .file [120])], []⟩
    let j := recording ((Dict.empty.insert Metadata.archiveDirKey (.text "archive")).insert
      Metadata.outputPathKey (.text "archive//./out.csv"))
    fs.Proper ∧ fs.Linkless ∧
      (∀ key ∈ placeKeys, ∀ p, placeOf j key = some p → Path.Plain p) ∧
      (candidates fs j).length = 2 ∧ (resolve fs j).length = 1 ∧
      ((resolve fs j).map fun e => fs.find e.path).Nodup := by
  intro fs j
  have hfs : fs.Proper := by decide +kernel
  have hlinks : fs.Linkless := by decide +kernel
  have hp : ∀ key ∈ placeKeys, ∀ p, placeOf j key = some p → Path.Plain p := by decide +kernel
  exact ⟨hfs, hlinks, hp, by decide +kernel, by decide +kernel,
    (listed_once_iff fs j).2.2.2 hfs hlinks hp⟩

/-- An output in the archive is listed twice where its path goes up and down again. -/
theorem listed_twice_of_double_dot :
    let fs : FileSystem := ⟨[(["archive"], .directory), (["archive", "out.csv"], .file [120])], []⟩
    let j := recording ((Dict.empty.insert Metadata.archiveDirKey (.text "archive")).insert
      Metadata.outputPathKey (.text "archive/../archive/out.csv"))
    ((resolve fs j).map fun e => fs.find e.path) =
        [.ok ["archive", "out.csv"], .ok ["archive", "out.csv"]] ∧
      ¬((resolve fs j).map fun e => fs.find e.path).Nodup := by
  intro fs j
  have htwice : ((resolve fs j).map fun e => fs.find e.path) =
      [.ok ["archive", "out.csv"], .ok ["archive", "out.csv"]] := by decide +kernel
  refine ⟨htwice, ?_⟩
  rw [htwice]
  exact fun h => (List.nodup_cons.mp h).1 List.mem_cons_self

end JobConsole.Resolved
