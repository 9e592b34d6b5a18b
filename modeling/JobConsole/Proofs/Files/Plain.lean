import JobConsole.Proofs.Files.Growth

/-! # Paths that are plain

Where there are no symbolic links, an absolute path that never goes up leads to the location that its names
spell. So of two such paths those that lead to one place have the same components.
-/

namespace JobConsole

namespace Path

variable {p d s : String}

/-- An absolute path that never goes up. -/
@[mk_iff]
structure Plain (p : String) : Prop where
  isAbsolute : isAbsolute p = true
  no_up : ".." ∉ pieces p

instance (p : String) : Decidable (Plain p) := decidable_of_iff _ (plain_iff p).symm

theorem filterMap_component?_filter (ps : List String) :
    (ps.filter isStep).filterMap component? = ps.filterMap component? := by
  rw [List.filterMap_filter]
  refine List.filterMap_congr fun s _ => ?_
  split
  · rfl
  next h =>
    have hs : s = "" ∨ s = "." := by simpa [isStep, or_iff_not_imp_left] using h
    exact (if_pos hs).symm

theorem Plain.components_eq (h : Plain p) :
    components p = .root :: ((pieces p).filter isStep).filterMap component? := by
  rw [filterMap_component?_filter, components, if_pos h.isAbsolute]
  rfl

theorem Plain.ne_empty (h : Plain p) : p ≠ "" := by
  rintro rfl
  cases h.isAbsolute

theorem Plain.join (h : Plain d) (hs : IsName s) : Plain (join d s) := by
  refine ⟨(isAbsolute_join hs.isRelative h.ne_empty).trans h.isAbsolute, fun hm => ?_⟩
  obtain ⟨xs, hxs, hd⟩ := exists_pieces_join hs.isRelative h.ne_empty
  rw [hxs, hs.pieces_eq] at hm
  rcases List.mem_append.mp hm with hm | hm
  · refine h.no_up ?_
    rcases hd with hd | hd <;> simp [hd, hm]
  · exact hs.ne_up (List.mem_singleton.mp hm).symm

end Path

def Entry.isLink : Entry → Bool
  | .link _ => true
  | _ => false

namespace FileSystem

variable {fs : FileSystem} {n : Nat} {l m : Location} {names : List String} {p q : String}

def Linkless (fs : FileSystem) : Prop := ∀ e ∈ fs.entries, e.2.isLink = false

instance (fs : FileSystem) : Decidable fs.Linkless :=
  inferInstanceAs (Decidable (∀ e ∈ fs.entries, e.2.isLink = false))

theorem Linkless.entry?_ne_link (h : fs.Linkless) (l : Location) (t : String) :
    fs.entry? l ≠ some (.link t) := by
  intro he
  unfold entry? at he
  split at he
  · cases he
  · obtain ⟨l₁, l₂, hes, -⟩ := List.lookup_eq_some_iff.mp he
    exact absurd (h (l, .link t) (by simp [hes])) (by simp [Entry.isLink])

theorem Walks.eq_append_filter (h : fs.Walks true n l names (.taken m)) (hfs : fs.Linkless)
    (hup : ".." ∉ names) : m = l ++ names.filter Path.isStep := by
  generalize hp : Place.taken m = p at h
  induction h with
  | done =>
    cases hp
    exact (List.append_nil _).symm
  | stay _ hs _ ih =>
    rw [List.filter_cons_of_neg (by simp [Path.isStep, ← not_or, hs])]
    exact ih (fun hm => hup (List.mem_cons_of_mem _ hm)) hp
  | up => exact absurd List.mem_cons_self hup
  | vacant => cases hp
  | keep _ _ _ hf => cases hf
  | follow _ _ he => exact absurd he (hfs.entry?_ne_link _ _)
  | enter _ hs _ _ _ ih =>
    rw [List.filter_cons_of_pos hs.isStep, ih (fun hm => hup (List.mem_cons_of_mem _ hm)) hp,
      List.append_assoc, List.singleton_append]

theorem find_of_plain (hfs : fs.Linkless) (hp : Path.Plain p) (h : fs.find p = .ok l) :
    l = (Path.pieces p).filter Path.isStep := by
  have hw := (find_eq_ok_iff.mp h).2.eq_append_filter hfs hp.no_up
  rwa [start, if_pos hp.isAbsolute, List.nil_append] at hw

theorem components_eq_of_find (hfs : fs.Linkless) (hp : Path.Plain p) (hq : Path.Plain q)
    (h : fs.find p = .ok l) (h' : fs.find q = .ok l) : Path.components p = Path.components q := by
  rw [hp.components_eq, hq.components_eq, ← find_of_plain hfs hp h, ← find_of_plain hfs hq h']

end FileSystem

end JobConsole
