import JobConsole.Files.Path
import Mathlib.Data.List.Basic
import Mathlib.Data.String.Basic
import Mathlib.Tactic.MkIffOfInductiveProp

/-! # Paths that are joined

Joining puts a path behind another, with one separator between them. It does not matter in which order
three paths are joined, and the pieces of a joined path are those of its parts.
-/

namespace JobConsole.Path

variable {sep : Char} {l : List Char} {a b c d p s : String}

/-! ## Cutting -/

theorem splitAt_ne_nil (sep : Char) (l : List Char) : splitAt sep l ≠ [] := by
  cases l with
  | nil => simp [splitAt]
  | cons c l =>
    rw [splitAt]
    split
    · simp
    · split <;> simp

theorem splitAt_between (l r : List Char) :
    splitAt sep (l ++ sep :: r) = splitAt sep l ++ splitAt sep r := by
  induction l with
  | nil => simp [splitAt]
  | cons c l ih =>
    by_cases hc : c = sep
    · simp [splitAt, hc, ih]
    · obtain ⟨t, ts, ht⟩ := List.exists_cons_of_ne_nil (splitAt_ne_nil sep l)
      simp [splitAt, hc, ih, ht]

theorem splitAt_of_notMem (h : sep ∉ l) : splitAt sep l = [l] := by
  induction l with
  | nil => rfl
  | cons c l ih =>
    obtain ⟨hc, hl⟩ := not_or.mp (mt List.mem_cons.mpr h)
    rw [splitAt, if_neg (Ne.symm hc), ih hl]

theorem exists_mem_splitAt {c : Char} (h : c ∈ l) (hc : c ≠ sep) : ∃ t ∈ splitAt sep l, c ∈ t := by
  induction l with
  | nil => cases h
  | cons x l ih =>
    by_cases hx : x = sep
    · have hl : c ∈ l := (List.mem_cons.mp h).resolve_left fun he => hc (he.trans hx)
      obtain ⟨t, ht, hct⟩ := ih hl
      rw [splitAt, if_pos hx]
      exact ⟨t, List.mem_cons_of_mem _ ht, hct⟩
    · obtain ⟨t, ts, hts⟩ := List.exists_cons_of_ne_nil (splitAt_ne_nil sep l)
      rw [hts] at ih
      simp only [splitAt, if_neg hx, hts]
      rcases List.mem_cons.mp h with rfl | hl
      · exact ⟨_, List.mem_cons_self, List.mem_cons_self⟩
      · obtain ⟨t', ht', hct⟩ := ih hl
        rcases List.mem_cons.mp ht' with rfl | ht'
        · exact ⟨_, List.mem_cons_self, List.mem_cons_of_mem x hct⟩
        · exact ⟨t', List.mem_cons_of_mem _ ht', hct⟩

theorem pieces_between (a b : String) : pieces (a ++ "/" ++ b) = pieces a ++ pieces b := by
  have h : (a ++ "/" ++ b).toList = a.toList ++ '/' :: b.toList := by
    rw [String.toList_append, String.toList_append, List.append_assoc]
    rfl
  rw [pieces, h, splitAt_between, List.map_append]
  rfl

theorem pieces_of_notMem (h : '/' ∉ s.toList) : pieces s = [s] := by
  rw [pieces, splitAt_of_notMem h, List.map_singleton, String.ofList_toList]

theorem exists_mem_pieces {c : Char} (h : c ∈ s.toList) (hc : c ≠ '/') :
    ∃ t ∈ pieces s, c ∈ t.toList := by
  obtain ⟨t, ht, hct⟩ := exists_mem_splitAt h hc
  exact ⟨_, List.mem_map_of_mem ht, by rwa [String.toList_ofList]⟩

/-! ## Joining -/

@[simp] theorem join_of_isAbsolute (h : isAbsolute p = true) : join a p = p := if_pos h

/-- A path with the separator behind which another path can stand. -/
def opened (a : String) : String :=
  if a = "" ∨ endsWithSlash a = true then a else a ++ "/"

theorem join_of_isRelative (h : isAbsolute p = false) : join a p = opened a ++ p := by
  rw [join, if_neg (by simp [h]), opened]
  split <;> rfl

theorem isAbsolute_append (h : a ≠ "") : isAbsolute (a ++ b) = isAbsolute a := by
  obtain ⟨c, r, hc⟩ := List.exists_cons_of_ne_nil (mt String.toList_eq_nil_iff.mp h)
  simp [isAbsolute, String.toList_append, hc]

theorem endsWithSlash_append (h : b ≠ "") : endsWithSlash (a ++ b) = endsWithSlash b := by
  have hb : b.toList ≠ [] := mt String.toList_eq_nil_iff.mp h
  rw [endsWithSlash, String.toList_append, List.getLast?_append_of_ne_nil _ hb, endsWithSlash]

theorem opened_opened (a : String) : opened (opened a) = opened a := by
  have h : endsWithSlash "/" = true := by decide
  by_cases ha : a = "" ∨ endsWithSlash a = true
  · rw [opened, opened, if_pos ha, if_pos ha]
  · have he : endsWithSlash (a ++ "/") = true := by rw [endsWithSlash_append (by decide), h]
    have ho : opened a = a ++ "/" := if_neg ha
    rw [ho, opened, if_pos (.inr he)]

theorem opened_append (h : b ≠ "") : opened (a ++ b) = a ++ opened b := by
  have hab : a ++ b ≠ "" := by simp [h]
  rw [opened, opened, endsWithSlash_append h]
  split <;> split <;> simp_all [String.append_assoc]

theorem isAbsolute_join (h : isAbsolute p = false) (hd : d ≠ "") :
    isAbsolute (join d p) = isAbsolute d := by
  rw [join_of_isRelative h, opened]
  split
  · rw [isAbsolute_append hd]
  · rw [String.append_assoc, isAbsolute_append hd]

theorem isRelative_join (hb : isAbsolute b = false) (hc : isAbsolute c = false) :
    isAbsolute (join b c) = false := by
  by_cases h : b = ""
  · subst h
    rw [join_of_isRelative hc]
    simpa [opened] using hc
  · rw [isAbsolute_join hc h, hb]

theorem isAbsolute_join_of_or (h : isAbsolute a = true ∨ isAbsolute b = true) :
    isAbsolute (join a b) = true := by
  by_cases hb : isAbsolute b = true
  · rwa [join_of_isAbsolute hb]
  · have ha := h.resolve_right hb
    rw [isAbsolute_join (by simpa using hb) (by rintro rfl; simp [isAbsolute] at ha), ha]

theorem exists_join_eq_append (a : String) (hb : isAbsolute b = false) :
    ∃ x, join a b = a ++ x ++ b := by
  rw [join_of_isRelative hb, opened]
  split
  · exact ⟨"", by rw [String.append_empty]⟩
  · exact ⟨"/", rfl⟩

theorem join_ne_empty (hb : b ≠ "") : join a b ≠ "" := by
  by_cases ha : isAbsolute b = true
  · rwa [join_of_isAbsolute ha]
  · obtain ⟨x, hx⟩ := exists_join_eq_append a (by simpa using ha)
    simp [hx, hb]

theorem join_assoc (a b c : String) : join a (join b c) = join (join a b) c := by
  by_cases hc : isAbsolute c = true
  · rw [join_of_isAbsolute hc, join_of_isAbsolute hc, join_of_isAbsolute hc]
  by_cases hb : isAbsolute b = true
  · have hbc : isAbsolute (join b c) = true := by
      rw [isAbsolute_join (by simpa using hc) (by rintro rfl; simp [isAbsolute] at hb), hb]
    rw [join_of_isAbsolute hbc, join_of_isAbsolute hb]
  have hb : isAbsolute b = false := by simpa using hb
  have hc : isAbsolute c = false := by simpa using hc
  rw [join_of_isRelative (isRelative_join hb hc), join_of_isRelative hb, join_of_isRelative hc,
    join_of_isRelative hc]
  by_cases h : b = ""
  · subst h
    have hempty : opened "" = "" := if_pos (.inl rfl)
    rw [String.append_empty, opened_opened, hempty, String.empty_append]
  · rw [opened_append h, String.append_assoc]

/-! ## A name in a directory -/

/-- A path that is one name. -/
@[mk_iff]
structure IsName (s : String) : Prop where
  ne_empty : s ≠ ""
  ne_here : s ≠ "."
  ne_up : s ≠ ".."
  one_piece : '/' ∉ s.toList
  no_nul : '\x00' ∉ s.toList

instance (s : String) : Decidable (IsName s) := decidable_of_iff _ (isName_iff s).symm

theorem IsName.isRelative (h : IsName s) : isAbsolute s = false := by
  obtain ⟨c, r, hc⟩ := List.exists_cons_of_ne_nil (mt String.toList_eq_nil_iff.mp h.ne_empty)
  have hm := h.one_piece
  rw [hc] at hm
  simp only [List.mem_cons, not_or] at hm
  simp [isAbsolute, hc, Ne.symm hm.1]

/-- The pieces of a path stand in a joined path behind those of the directory; what is behind a
separator at its end does not count. -/
theorem exists_pieces_join (hp : isAbsolute p = false) (hd : d ≠ "") :
    ∃ xs, pieces (join d p) = xs ++ pieces p ∧ (pieces d = xs ∨ pieces d = xs ++ [""]) := by
  rw [join_of_isRelative hp, opened]
  by_cases he : endsWithSlash d = true
  · obtain ⟨r, hr⟩ : ∃ r, d.toList = r ++ ['/'] := by
      simp only [endsWithSlash, beq_iff_eq] at he
      exact List.getLast?_eq_some_iff.mp he
    have hd' : d = String.ofList r ++ "/" := by
      rw [← String.ofList_toList (s := d), hr, String.ofList_append]
    rw [if_pos (.inr he)]
    refine ⟨pieces (String.ofList r), ?_, .inr ?_⟩
    · rw [hd', pieces_between]
    · have hempty : pieces "" = [""] := rfl
      rw [hd', ← String.append_empty (s := String.ofList r ++ "/"), pieces_between, hempty]
  · rw [if_neg (not_or.mpr ⟨hd, he⟩), pieces_between]
    exact ⟨pieces d, rfl, .inl rfl⟩

theorem IsName.pieces_eq (h : IsName s) : pieces s = [s] := pieces_of_notMem h.one_piece

theorem IsName.exists_piece (h : IsName s) : ∃ t ∈ pieces s, t ≠ "" :=
  ⟨s, h.pieces_eq ▸ List.mem_singleton_self s, h.ne_empty⟩

theorem IsName.exists_piece_join (h : IsName s) (hd : d ≠ "") :
    ∃ t ∈ pieces (join d s), t ≠ "" := by
  obtain ⟨xs, hxs, -⟩ := exists_pieces_join h.isRelative hd
  obtain ⟨t, ht, hne⟩ := h.exists_piece
  exact ⟨t, hxs ▸ List.mem_append_right xs ht, hne⟩

end JobConsole.Path
