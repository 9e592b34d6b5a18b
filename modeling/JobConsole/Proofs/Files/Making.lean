import JobConsole.Proofs.Files.Lookup

/-! # Making directories

A directory is made where nothing is, so all that was there before stays. An attempt that ends without
an error leaves a directory at the path, and changes nothing where one was already.
-/

namespace JobConsole

namespace Path

variable {p : String}

theorem components_ne_nil (h : p ≠ "") : components p ≠ [] := by
  obtain ⟨c, r, hc⟩ := List.exists_cons_of_ne_nil (mt String.toList_eq_nil_iff.mp h)
  by_cases ha : isAbsolute p = true
  · simp [components, ha]
  have hslash : c ≠ '/' := by
    rintro rfl
    exact ha (by simp [isAbsolute, hc])
  obtain ⟨s, ss, hs⟩ := List.exists_cons_of_ne_nil (splitAt_ne_nil '/' r)
  have hp : pieces p = String.ofList (c :: s) :: ss.map String.ofList := by
    simp [pieces, hc, splitAt, hslash, hs]
  by_cases hd : String.ofList (c :: s) = "."
  · simp [components, ha, hp, hd]
  · have hne : ¬(String.ofList (c :: s) = "" ∨ String.ofList (c :: s) = ".") := by simpa using hd
    obtain ⟨x, hx⟩ : ∃ x, component? (String.ofList (c :: s)) = some x := by
      rw [component?, if_neg hne]
      split <;> exact ⟨_, rfl⟩
    rw [components, hp, List.filterMap_cons_some hx]
    simp

end Path

namespace FileSystem

variable {fs fs' fs'' : FileSystem} {p : String} {l m : Location} {e : Entry}

/-! ## What is added -/

theorem lookup_filter_ne (es : List (Location × Entry)) (l m : Location) :
    (es.filter (·.1 ≠ l)).lookup m = if m = l then none else es.lookup m := by
  induction es with
  | nil => simp
  | cons x es ih =>
    obtain ⟨k, v⟩ := x
    by_cases hk : k = l
    · rw [List.filter_cons_of_neg (by simpa using hk), ih, List.lookup_cons]
      split
      · rfl
      next hm => rw [beq_false_of_ne (hk ▸ hm)]
    · rw [List.filter_cons_of_pos (by simpa using hk), List.lookup_cons, List.lookup_cons, ih]
      by_cases hm : m = k
      · simp [hm, hk]
      · rw [beq_false_of_ne hm]

theorem entry?_set (hl : l ≠ []) (e : Entry) (m : Location) :
    FileSystem.entry? (fs.set l e) m = if m = l then some e else fs.entry? m := by
  unfold entry? set
  rw [List.lookup_append, lookup_filter_ne]
  by_cases hm : m = l
  · simp [hm, hl]
  · simp [hm, List.lookup_cons, beq_false_of_ne hm]

/-- A file system with more in it, and the same current directory. -/
structure Extends (fs fs' : FileSystem) : Prop where
  within : fs.Within fs'
  current : fs'.current = fs.current

theorem Extends.refl (fs : FileSystem) : fs.Extends fs := ⟨fun _ _ => id, rfl⟩

theorem Extends.trans (h : fs.Extends fs') (h' : fs'.Extends fs'') : fs.Extends fs'' :=
  ⟨fun l e he => h'.within l e (h.within l e he), h'.current.trans h.current⟩

theorem Extends.start (h : fs.Extends fs') (p : String) : fs'.start p = fs.start p := by
  rw [FileSystem.start, h.current, FileSystem.start]

theorem Extends.find (h : fs.Extends fs') (hf : fs.find p = .ok l) : fs'.find p = .ok l := by
  obtain ⟨hu, hw⟩ := find_eq_ok_iff.mp hf
  exact find_eq_ok_iff.mpr ⟨hu, h.start p ▸ hw.within h.within⟩

theorem ne_nil_of_vacant (h : fs.entry? l = none) : l ≠ [] := by
  rintro rfl
  cases h

theorem extends_set (h : fs.entry? l = none) : fs.Extends (fs.set l e) := by
  refine ⟨fun m e' he => ?_, rfl⟩
  rw [entry?_set (ne_nil_of_vacant h), if_neg]
  · exact he
  · rintro rfl
    cases h.symm.trans he

/-! ## Attempts -/

theorem makeDirectory_eq_ok (h : fs.makeDirectory p = .ok fs') :
    fs.Extends fs' ∧ fs'.isDirectory p = true := by
  rw [makeDirectory] at h
  split at h
  · cases h
  · cases h
  next l slash hp =>
    obtain rfl := Except.ok.inj h
    obtain ⟨hu, hw⟩ := place_eq_ok_iff.mp hp
    have hnone := hw.entry?_vacant
    have hdir : FileSystem.entry? (fs.set l .directory) l = some .directory := by
      rw [entry?_set (ne_nil_of_vacant hnone), if_pos rfl]
    have hext : fs.Extends (fs.set l .directory) := extends_set hnone
    refine ⟨hext, isDirectory_iff.mpr ⟨l, find_eq_ok_iff.mpr ⟨hu, ?_⟩, hdir⟩⟩
    exact hext.start p ▸ hw.fill hext.within hdir

/-- What an attempt for a path leaves: more than before, and the directory unless there is an error. -/
structure Attempt.Sound (fs : FileSystem) (p : String) (a : Attempt) : Prop where
  extends_fst : fs.Extends a.1
  isDirectory : a.2 = none → a.1.isDirectory p = true

theorem sound_settle (fs : FileSystem) (p : String) (e : FileError) :
    Attempt.Sound fs p (fs.settle p e) := by
  unfold settle
  split
  next h => exact ⟨.refl fs, fun _ => h⟩
  · exact ⟨.refl fs, fun h => by cases h⟩

theorem sound_makeAt (fs : FileSystem) (p : String) : Attempt.Sound fs p (fs.makeAt p) := by
  unfold makeAt
  split
  next fs' h => exact ⟨(makeDirectory_eq_ok h).1, fun _ => (makeDirectory_eq_ok h).2⟩
  next e h => exact sound_settle fs p e

theorem sound_makeTree (fs : FileSystem) (p : String) (above : List String) :
    Attempt.Sound fs p (fs.makeTree (p :: above)) := by
  induction above generalizing p with
  | nil =>
    rw [makeTree]
    split
    next fs' h => exact ⟨(makeDirectory_eq_ok h).1, fun _ => (makeDirectory_eq_ok h).2⟩
    · exact sound_makeAt fs p
    next e _ h => exact sound_settle fs p e
  | cons q above ih =>
    rw [makeTree]
    split
    next fs' h => exact ⟨(makeDirectory_eq_ok h).1, fun _ => (makeDirectory_eq_ok h).2⟩
    · have hq := ih q
      split
      next fs' e he => exact ⟨he ▸ hq.extends_fst, fun h => by cases h⟩
      next fs' he =>
        have hp := sound_makeAt fs' p
        rw [he] at hq
        exact ⟨hq.extends_fst.trans hp.extends_fst, hp.isDirectory⟩
    next e _ h => exact sound_settle fs p e

theorem sound_makeDirectories (h : p ≠ "") (fs : FileSystem) :
    Attempt.Sound fs p (fs.makeDirectories p) := by
  unfold makeDirectories
  split
  next hp => exact absurd hp (Path.components_ne_nil h)
  · exact sound_makeTree fs p _

theorem exists_of_makeDirectories (hp : p ≠ "") (h : fs.makeDirectories p = (fs', none)) :
    ∃ l, fs'.find p = .ok l ∧ fs'.entry? l = some .directory := by
  have hsound := sound_makeDirectories hp fs
  rw [h] at hsound
  exact isDirectory_iff.mp (hsound.isDirectory rfl)

theorem makeDirectories_of_isDirectory (h : fs.isDirectory p = true) :
    fs.makeDirectories p = (fs, none) := by
  obtain ⟨l, hl, -⟩ := isDirectory_iff.mp h
  obtain ⟨hu, hw⟩ := find_eq_ok_iff.mp hl
  obtain ⟨k, hk⟩ := hw.kept
  have hmake : fs.makeDirectory p = .error .alreadyExists := by
    rw [makeDirectory, place_eq_ok_iff.mpr ⟨hu, hk⟩]
  have hsettle : fs.settle p .alreadyExists = (fs, none) := if_pos h
  unfold makeDirectories
  split
  · rfl
  · rw [makeTree, hmake]
    exact hsettle

end FileSystem

end JobConsole
