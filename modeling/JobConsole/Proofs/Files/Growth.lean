import JobConsole.Proofs.Files.Making
import Mathlib.Data.List.Nodup

/-! # Files that are added

Where regular files are added under new names, a path leads where it led before, or to a file that has
been added. Two paths with the same components lead to the same place, if they lead anywhere.
-/

namespace JobConsole

/-! ## Paths with the same components -/

namespace Path

variable {p q d s : String}

def isStep (s : String) : Bool := decide (s ≠ "" ∧ s ≠ ".")

open FileSystem.textOf (nameOf)

theorem map_nameOf_filterMap (ps : List String) :
    (ps.filterMap component?).map nameOf = ps.filter isStep := by
  induction ps with
  | nil => rfl
  | cons s ps ih =>
    by_cases hs : s = "" ∨ s = "."
    · have hnone : component? s = none := if_pos hs
      rw [List.filterMap_cons_none hnone, List.filter_cons_of_neg (by simp [isStep, ← not_or, hs]), ih]
    · have hstep : isStep s = true := by simpa [isStep, not_or] using hs
      obtain ⟨c, hc, hn⟩ : ∃ c, component? s = some c ∧ nameOf c = s := by
        rw [component?, if_neg hs]
        split
        next hu => exact ⟨_, rfl, hu.symm⟩
        · exact ⟨_, rfl, rfl⟩
      rw [List.filterMap_cons_some hc, List.filter_cons_of_pos hstep, List.map_cons, ih, hn]

def Component.isPiece : Component → Bool
  | .up | .name _ => true
  | .root | .here => false

theorem isPiece_of_component? {c : Component} (h : component? s = some c) : c.isPiece = true := by
  unfold component? at h
  split at h
  · cases h
  · split at h <;> cases h <;> rfl

theorem filter_components (p : String) :
    (components p).filter Component.isPiece = (pieces p).filterMap component? := by
  have hall : ∀ c ∈ (pieces p).filterMap component?, c.isPiece = true := by
    intro c hc
    obtain ⟨s, -, hs⟩ := List.mem_filterMap.mp hc
    exact isPiece_of_component? hs
  simp only [components]
  split
  · simpa [Component.isPiece] using hall
  · split <;> simpa [Component.isPiece] using hall

theorem root_mem_components_iff : Component.root ∈ components p ↔ isAbsolute p = true := by
  have hnot : Component.root ∉ (pieces p).filterMap component? := by
    intro h
    obtain ⟨s, -, hs⟩ := List.mem_filterMap.mp h
    cases isPiece_of_component? hs
  simp only [components]
  split
  next h => simp [h]
  next h => split <;> simp_all

theorem of_components_eq (h : components p = components q) :
    isAbsolute p = isAbsolute q ∧ (pieces p).filter isStep = (pieces q).filter isStep := by
  constructor
  · rw [Bool.eq_iff_iff, ← root_mem_components_iff, h, root_mem_components_iff]
  · rw [← map_nameOf_filterMap, ← filter_components, h, filter_components, map_nameOf_filterMap]

theorem fileName_join (hs : IsName s) (hd : d ≠ "") : fileName (join d s) = s := by
  obtain ⟨xs, hxs, -⟩ := exists_pieces_join hs.isRelative hd
  have hname : component? s = some (.name s) := by
    rw [component?, if_neg (not_or.mpr ⟨hs.ne_empty, hs.ne_here⟩), if_neg hs.ne_up]
  have hlast : (components (join d s)).getLast? = some (.name s) := by
    simp [components, hxs, hs.pieces_eq, List.filterMap_append, hname]
  rw [fileName, hlast]

end Path

namespace FileSystem

variable {fs fs' : FileSystem} {follow : Bool} {n : Nat} {l m : Location} {names : List String}
  {p q d s : String} {e : Entry}

theorem Ordinary.isStep {s : String} (h : Ordinary s) : Path.isStep s = true := by
  simp [Path.isStep, h.ne_empty, h.ne_here]

/-- Pieces that are skipped may be left out, but not those of a link. -/
theorem Walks.filter {a b : List String} (h : fs.Walks true n l (a ++ b) (.taken m)) :
    fs.Walks true n l (a ++ b.filter Path.isStep) (.taken m) := by
  generalize hnames : a ++ b = names at h
  generalize hp : Place.taken m = p at h ⊢
  induction h generalizing a b with
  | done =>
    obtain ⟨rfl, rfl⟩ := List.append_eq_nil_iff.mp hnames
    exact .done
  | stay hd hs _ ih =>
    rcases List.append_eq_cons_iff.mp hnames with ⟨rfl, rfl⟩ | ⟨a, rfl, rfl⟩
    · rw [List.filter_cons_of_neg (by simp [Path.isStep, ← not_or, hs])]
      exact ih (a := []) rfl hp
    · exact .stay hd hs (ih rfl hp)
  | up hd _ ih =>
    rcases List.append_eq_cons_iff.mp hnames with ⟨rfl, rfl⟩ | ⟨a, rfl, rfl⟩
    · rw [List.filter_cons_of_pos (by decide)]
      exact .up hd (ih (a := []) rfl hp)
    · exact .up hd (ih rfl hp)
  | vacant => cases hp
  | keep _ _ _ hf => cases hf
  | @follow n l s target rest p hd hs he _ ht _ ih =>
    rcases List.append_eq_cons_iff.mp hnames with ⟨rfl, rfl⟩ | ⟨a, rfl, rfl⟩
    · rw [List.filter_cons_of_pos hs.isStep]
      exact .follow hd hs he (.inr rfl) ht (ih rfl hp)
    · have h := ih (a := Path.pieces target ++ a) (List.append_assoc ..) hp
      exact .follow hd hs he (.inr rfl) ht (by rwa [List.append_assoc] at h)
  | enter hd hs he hl _ ih =>
    rcases List.append_eq_cons_iff.mp hnames with ⟨rfl, rfl⟩ | ⟨a, rfl, rfl⟩
    · rw [List.filter_cons_of_pos hs.isStep]
      exact .enter hd hs he hl (ih (a := []) rfl hp)
    · exact .enter hd hs he hl (ih rfl hp)

theorem find_congr (hc : Path.components p = Path.components q) (hp : fs.find p = .ok l)
    (hq : fs.find q = .ok m) : l = m := by
  obtain ⟨habs, hsteps⟩ := Path.of_components_eq hc
  have hstart : fs.start p = fs.start q := by rw [start, start, habs]
  have hp := (find_eq_ok_iff.mp hp).2.filter (a := []) (b := Path.pieces p)
  have hq := (find_eq_ok_iff.mp hq).2.filter (a := []) (b := Path.pieces q)
  rw [hsteps, hstart] at hp
  exact Place.taken.inj (hp.unique hq)

/-! ## The names in a directory -/

/-- Every location is listed once, and by names that paths can be made of. -/
@[mk_iff]
structure Proper (fs : FileSystem) : Prop where
  distinct : (fs.entries.map Prod.fst).Nodup
  named : ∀ e ∈ fs.entries, ∀ s ∈ e.1, Path.IsName s

instance (fs : FileSystem) : Decidable fs.Proper := decidable_of_iff _ (proper_iff fs).symm

theorem isSome_entry?_iff (hl : l ≠ []) :
    (fs.entry? l).isSome ↔ l ∈ fs.entries.map Prod.fst := by
  unfold entry?
  rw [if_neg hl, List.lookup_isSome_iff]
  simp only [beq_iff_eq, List.mem_map, eq_comm (a := l)]

theorem namesIn_eq (fs : FileSystem) (l : Location) :
    fs.namesIn l = (fs.entries.map Prod.fst).filterMap
      fun k => if k.dropLast = l then k.getLast? else none := by
  rw [List.filterMap_map]
  rfl

theorem eq_append_of_getLast? {k : Location}
    (h : (if k.dropLast = l then k.getLast? else none) = some s) : k = l ++ [s] := by
  split at h
  next hk =>
    obtain ⟨r, rfl⟩ := List.getLast?_eq_some_iff.mp h
    rw [List.dropLast_concat] at hk
    rw [hk]
  · cases h

theorem mem_namesIn_iff : s ∈ fs.namesIn l ↔ (fs.entry? (l ++ [s])).isSome := by
  rw [isSome_entry?_iff (by simp), namesIn_eq, List.mem_filterMap]
  constructor
  · rintro ⟨k, hk, hs⟩
    exact eq_append_of_getLast? hs ▸ hk
  · intro hk
    exact ⟨l ++ [s], hk, by simp⟩

theorem Proper.nodup_namesIn (h : fs.Proper) (l : Location) : (fs.namesIn l).Nodup := by
  rw [namesIn_eq]
  refine h.distinct.filterMap fun k k' s hk hk' => ?_
  rw [eq_append_of_getLast? hk, eq_append_of_getLast? hk']

theorem Proper.isName (h : fs.Proper) (hs : s ∈ fs.namesIn l) : Path.IsName s := by
  rw [mem_namesIn_iff, isSome_entry?_iff (by simp)] at hs
  obtain ⟨e, he, hl⟩ := List.mem_map.mp hs
  exact h.named e he s (hl ▸ List.mem_append_right l (List.mem_singleton_self s))

/-! ## Growth -/

/-- The one file system is the other with regular files added under new names. -/
structure Grows (fs fs' : FileSystem) : Prop extends Extends fs fs' where
  added : ∀ l e, fs'.entry? l = some e → fs.entry? l = none → ∃ content, e = .file content

theorem Grows.entry?_of_not_file (h : fs.Grows fs') (he : fs'.entry? l = some e)
    (hf : ∀ content, e ≠ .file content) : fs.entry? l = some e := by
  cases hl : fs.entry? l with
  | none =>
    obtain ⟨content, rfl⟩ := h.added l e he hl
    exact absurd rfl (hf content)
  | some e' => rw [← he, h.within l e' hl]

/-- A walk that is new comes to a file that is new. -/
theorem Grows.walks (h : fs.Grows fs') (hw : fs'.Walks follow n l names (.taken m)) :
    fs.Walks follow n l names (.taken m) ∨ fs.entry? m = none := by
  have hdir {l : Location} (hd : fs'.entry? l = some .directory) : fs.entry? l = some .directory :=
    h.entry?_of_not_file hd fun _ => Entry.noConfusion
  have hlink {l : Location} {t : String} (hk : fs'.entry? l = some (.link t)) :
      fs.entry? l = some (.link t) :=
    h.entry?_of_not_file hk fun _ => Entry.noConfusion
  generalize hp : Place.taken m = p at hw ⊢
  induction hw with
  | done => exact .inl .done
  | stay hd hs _ ih => exact (ih hp).imp_left (.stay (hdir hd) hs)
  | up hd _ ih => exact (ih hp).imp_left (.up (hdir hd))
  | vacant => cases hp
  | keep hd hs he hf => exact .inl (.keep (hdir hd) hs (hlink he) hf)
  | follow hd hs he hf ht _ ih => exact (ih hp).imp_left (.follow (hdir hd) hs (hlink he) hf ht)
  | @enter n l s rest p e hd hs he hl hrest ih =>
    cases hold : fs.entry? (l ++ [s]) with
    | some e' =>
      obtain rfl := Option.some.inj ((h.within _ _ hold).symm.trans he)
      exact (ih hp).imp_left (.enter (hdir hd) hs hold hl)
    | none =>
      obtain ⟨content, rfl⟩ := h.added _ _ he hold
      cases rest with
      | nil =>
        cases hrest
        exact .inr (Place.taken.inj hp ▸ hold)
      | cons t rest =>
        cases he.symm.trans (hrest.entry?_of_ne_nil (List.cons_ne_nil t rest))

theorem Grows.find (h : fs.Grows fs') (hf : fs'.find p = .ok m) :
    fs.find p = .ok m ∨ fs.entry? m = none := by
  obtain ⟨hu, hw⟩ := find_eq_ok_iff.mp hf
  rw [h.start p] at hw
  exact (h.walks hw).imp_left fun hw => find_eq_ok_iff.mpr ⟨hu, hw⟩

theorem Grows.directory_iff (h : fs.Grows fs') :
    fs'.find p = .ok l ∧ fs'.entry? l = some .directory ↔
      fs.find p = .ok l ∧ fs.entry? l = some .directory := by
  constructor
  · rintro ⟨hf, hd⟩
    have hd := h.entry?_of_not_file hd fun _ => Entry.noConfusion
    refine ⟨(h.find hf).resolve_right fun hn => ?_, hd⟩
    cases hn.symm.trans hd
  · rintro ⟨hf, hd⟩
    exact ⟨h.toExtends.find hf, h.within l _ hd⟩

theorem Extends.readFile {content : List UInt8} (h : fs.Extends fs')
    (hr : fs.readFile p = some content) : fs'.readFile p = some content := by
  obtain ⟨l, hl, he⟩ := readFile_eq_some_iff.mp hr
  exact readFile_eq_some_iff.mpr ⟨l, h.find hl, h.within l _ he⟩

theorem Grows.isSome_readFile_iff {content : List UInt8} (h : fs.Grows fs')
    (hf : fs'.find p = .ok m) (he : fs'.entry? m = some (.file content)) :
    (fs.readFile p).isSome ↔ (fs.entry? m).isSome := by
  constructor
  · intro hr
    obtain ⟨content, hr⟩ := Option.isSome_iff_exists.mp hr
    obtain ⟨l, hl, hl'⟩ := readFile_eq_some_iff.mp hr
    obtain rfl := Except.ok.inj ((h.toExtends.find hl).symm.trans hf)
    rw [hl']
    rfl
  · intro hs
    obtain ⟨e, hm⟩ := Option.isSome_iff_exists.mp hs
    obtain rfl := Option.some.inj ((h.within m e hm).symm.trans he)
    have hfind := (h.find hf).resolve_right (by simp [hm])
    exact Option.isSome_iff_exists.mpr ⟨_, readFile_eq_some_iff.mpr ⟨m, hfind, hm⟩⟩

theorem readFile_join_of_notMem (hf : fs.find d = .ok l) (hs : Path.IsName s)
    (hn : s ∉ fs.namesIn l) : fs.readFile (Path.join d s) = none := by
  refine Option.eq_none_iff_forall_ne_some.mpr fun content hr => hn ?_
  obtain ⟨m, hm, -⟩ := readFile_eq_some_iff.mp hr
  have hd := (find_eq_ok_iff.mp hf).1.ne_empty
  rw [find_eq_ok_iff, ← place_eq_ok_iff] at hm
  obtain ⟨k, n, -, hk, -, hw⟩ := exists_of_place_join hs.isRelative hs.exists_piece hd hm
  obtain rfl := Except.ok.inj (hk.symm.trans hf)
  rw [hs.pieces_eq] at hw
  rw [mem_namesIn_iff]
  cases hw with
  | stay _ h _ => exact absurd h (not_or.mpr ⟨hs.ne_empty, hs.ne_here⟩)
  | up => exact absurd rfl hs.ne_up
  | keep _ _ _ hf => cases hf
  | follow _ _ he _ _ _ => simp [he]
  | enter _ _ he _ _ => simp [he]

theorem grows_set (hl : fs.entry? l = none) (content : List UInt8) :
    fs.Grows (fs.set l (.file content)) := by
  refine ⟨extends_set hl, fun m e he hm => ?_⟩
  rw [entry?_set (ne_nil_of_vacant hl)] at he
  split at he
  · exact ⟨content, (Option.some.inj he).symm⟩
  · cases hm.symm.trans he

end FileSystem

end JobConsole
