import JobConsole.Files.System
import Mathlib.Data.List.Basic
import Mathlib.Tactic.MkIffOfInductiveProp

/-! # Walks

A walk that comes somewhere is a derivation with one rule for each way to take a name. From the rules
follows what walks have to do with each other: a walk along two parts is a walk along the first and one
along the second, and a walk stays what it is where something is added to the file system.
-/

namespace JobConsole.FileSystem

/-- A name that an entry can have. -/
@[mk_iff]
structure Ordinary (s : String) : Prop where
  ne_empty : s ≠ ""
  ne_here : s ≠ "."
  ne_up : s ≠ ".."
  fits : s.utf8ByteSize ≤ maxNameBytes

instance (s : String) : Decidable (Ordinary s) := decidable_of_iff _ (ordinary_iff s).symm

/-- The walk along some names from a location comes to a place, within so many links. -/
inductive Walks (fs : FileSystem) (follow : Bool) : Nat → Location → List String → Place → Prop where
  | done {n : Nat} {l : Location} : Walks fs follow n l [] (.taken l)
  | stay {n : Nat} {l : Location} {s : String} {rest : List String} {p : Place}
      (hd : fs.entry? l = some .directory) (hs : s = "" ∨ s = ".") (h : Walks fs follow n l rest p) :
      Walks fs follow n l (s :: rest) p
  | up {n : Nat} {l : Location} {rest : List String} {p : Place}
      (hd : fs.entry? l = some .directory) (h : Walks fs follow n l.dropLast rest p) :
      Walks fs follow n l (".." :: rest) p
  | vacant {n : Nat} {l : Location} {s : String} {rest : List String}
      (hd : fs.entry? l = some .directory) (hs : Ordinary s) (he : fs.entry? (l ++ [s]) = none)
      (hr : ∀ t ∈ rest, t = "") :
      Walks fs follow n l (s :: rest) (.vacant (l ++ [s]) (decide (rest ≠ [])))
  | keep {n : Nat} {l : Location} {s target : String}
      (hd : fs.entry? l = some .directory) (hs : Ordinary s)
      (he : fs.entry? (l ++ [s]) = some (.link target)) (hf : follow = false) :
      Walks fs follow n l [s] (.taken (l ++ [s]))
  | follow {n : Nat} {l : Location} {s target : String} {rest : List String} {p : Place}
      (hd : fs.entry? l = some .directory) (hs : Ordinary s)
      (he : fs.entry? (l ++ [s]) = some (.link target)) (hf : rest ≠ [] ∨ follow = true)
      (ht : target ≠ "")
      (h : Walks fs follow n (if Path.isAbsolute target then [] else l)
        (Path.pieces target ++ rest) p) :
      Walks fs follow (n + 1) l (s :: rest) p
  | enter {n : Nat} {l : Location} {s : String} {rest : List String} {p : Place} {e : Entry}
      (hd : fs.entry? l = some .directory) (hs : Ordinary s)
      (he : fs.entry? (l ++ [s]) = some e) (hl : ∀ t, e ≠ .link t)
      (h : Walks fs follow n (l ++ [s]) rest p) : Walks fs follow n l (s :: rest) p

variable {fs : FileSystem} {follow : Bool} {n : Nat} {l : Location} {names : List String} {p : Place}

theorem ordinary_of_not {s : String} (hs : ¬(s = "" ∨ s = ".")) (hu : s ≠ "..")
    (hn : ¬maxNameBytes < s.utf8ByteSize) : Ordinary s :=
  ⟨fun h => hs (.inl h), fun h => hs (.inr h), hu, Nat.not_lt.mp hn⟩

theorem walks_of_walkWith {jump : Location → String → List String → Except FileError Place}
    (hj : ∀ l target rest p, jump l target rest = .ok p → target ≠ "" ∧ ∃ k, n = k + 1 ∧
      Walks fs follow k (if Path.isAbsolute target then [] else l) (Path.pieces target ++ rest) p)
    (h : fs.walkWith follow jump l names = .ok p) : Walks fs follow n l names p := by
  fun_induction walkWith fs follow jump l names with
  | case1 =>
    obtain rfl := Except.ok.inj h
    exact .done
  | case3 l s rest hd hs ih => exact .stay (not_not.mp hd) hs (ih h)
  | case4 l rest hd hs ih => exact .up (not_not.mp hd) (ih h)
  | case6 l s hd hs hu hn he =>
    obtain rfl := Except.ok.inj h
    exact .vacant (not_not.mp hd) (ordinary_of_not hs hu hn) he (List.forall_mem_nil _)
  | case7 l s rest hd hs hu hn he hne hr =>
    obtain rfl := Except.ok.inj h
    have hr : ∀ t ∈ rest, t = "" := by simpa using hr
    have hw : Walks fs follow n l (s :: rest) (.vacant (l ++ [s]) (decide (rest ≠ []))) :=
      .vacant (not_not.mp hd) (ordinary_of_not hs hu hn) he hr
    rwa [decide_eq_true hne] at hw
  | case9 l s rest hd hs hu hn target he hk =>
    obtain rfl := Except.ok.inj h
    obtain ⟨rfl, hf⟩ := hk
    exact .keep (not_not.mp hd) (ordinary_of_not hs hu hn) he hf
  | case10 l s rest hd hs hu hn target he hk =>
    obtain ⟨ht, k, rfl, hw⟩ := hj l target rest p h
    refine .follow (not_not.mp hd) (ordinary_of_not hs hu hn) he ?_ ht hw
    cases follow <;> simp_all
  | case11 l s rest hd hs hu hn e he hl ih =>
    exact .enter (not_not.mp hd) (ordinary_of_not hs hu hn) hl he (ih h)
  | _ => cases h

theorem walks_of_walk (h : fs.walk follow n l names = .ok p) : Walks fs follow n l names p := by
  induction n generalizing l names p with
  | zero => exact walks_of_walkWith (fun _ _ _ _ h => by cases h) h
  | succ n ih =>
    refine walks_of_walkWith (fun l target rest p h => ?_) h
    split at h
    · cases h
    next ht => exact ⟨ht, n, rfl, ih h⟩

/-- How a walk goes on behind a link. -/
theorem exists_jump (fs : FileSystem) (follow : Bool) (n : Nat) :
    ∃ jump, fs.walk follow n = fs.walkWith follow jump ∧
      ∀ k, n = k + 1 → ∀ l target rest, target ≠ "" → jump l target rest =
        fs.walk follow k (if Path.isAbsolute target then [] else l) (Path.pieces target ++ rest) := by
  cases n with
  | zero => exact ⟨_, rfl, fun _ h => by cases h⟩
  | succ n =>
    refine ⟨_, rfl, fun k hk l target rest ht => ?_⟩
    obtain rfl := Nat.succ.inj hk
    exact if_neg ht

theorem Walks.walk_eq (h : Walks fs follow n l names p) : fs.walk follow n l names = .ok p := by
  induction h with
  | @done n =>
    obtain ⟨jump, hw, -⟩ := exists_jump fs follow n
    rw [hw, walkWith]
  | @stay n l s rest p hd hs _ ih =>
    obtain ⟨jump, hw, -⟩ := exists_jump fs follow n
    rw [hw, walkWith, if_neg (not_not.mpr hd), if_pos hs, ← hw, ih]
  | @up n l rest p hd _ ih =>
    obtain ⟨jump, hw, -⟩ := exists_jump fs follow n
    rw [hw, walkWith, if_neg (not_not.mpr hd), if_neg (by decide), if_pos rfl, ← hw, ih]
  | @vacant n l s rest hd hs he hr =>
    obtain ⟨jump, hw, -⟩ := exists_jump fs follow n
    rw [hw, walkWith, if_neg (not_not.mpr hd), if_neg (not_or.mpr ⟨hs.ne_empty, hs.ne_here⟩),
      if_neg hs.ne_up, if_neg (Nat.not_lt.mpr hs.fits), he]
    by_cases hrest : rest = []
    · simp [hrest]
    · simpa [hrest] using hr
  | @keep n l s target hd hs he hf =>
    obtain ⟨jump, hw, -⟩ := exists_jump fs follow n
    rw [hw, walkWith, if_neg (not_not.mpr hd), if_neg (not_or.mpr ⟨hs.ne_empty, hs.ne_here⟩),
      if_neg hs.ne_up, if_neg (Nat.not_lt.mpr hs.fits), he]
    exact if_pos ⟨rfl, hf⟩
  | @follow n l s target rest p hd hs he hf ht _ ih =>
    obtain ⟨jump, hw, hj⟩ := exists_jump fs follow (n + 1)
    have hk : ¬(rest = [] ∧ follow = false) := by rcases hf with hf | hf <;> simp [hf]
    rw [hw, walkWith, if_neg (not_not.mpr hd), if_neg (not_or.mpr ⟨hs.ne_empty, hs.ne_here⟩),
      if_neg hs.ne_up, if_neg (Nat.not_lt.mpr hs.fits), he]
    simp only [if_neg hk, hj n rfl l target rest ht, ih]
  | @enter n l s rest p e hd hs he hl _ ih =>
    obtain ⟨jump, hw, -⟩ := exists_jump fs follow n
    rw [hw, walkWith, if_neg (not_not.mpr hd), if_neg (not_or.mpr ⟨hs.ne_empty, hs.ne_here⟩),
      if_neg hs.ne_up, if_neg (Nat.not_lt.mpr hs.fits), he]
    cases e with
    | link t => exact absurd rfl (hl t)
    | _ =>
      rw [hw] at ih
      exact ih

theorem walk_eq_ok_iff : fs.walk follow n l names = .ok p ↔ Walks fs follow n l names p :=
  ⟨walks_of_walk, Walks.walk_eq⟩

variable {n' : Nat} {m v : Location} {xs ys : List String} {fs' : FileSystem} {slash : Bool}

theorem Walks.unique {q : Place} (h : Walks fs follow n l names p)
    (h' : Walks fs follow n l names q) : p = q :=
  Except.ok.inj (h.walk_eq.symm.trans h'.walk_eq)

/-! ## Parts of a walk -/

theorem Walks.mono (h : Walks fs follow n l names p) (hn : n ≤ n') :
    Walks fs follow n' l names p := by
  induction h generalizing n' with
  | done => exact .done
  | stay hd hs _ ih => exact .stay hd hs (ih hn)
  | up hd _ ih => exact .up hd (ih hn)
  | vacant hd hs he hr => exact .vacant hd hs he hr
  | keep hd hs he hf => exact .keep hd hs he hf
  | @follow n l s target rest p hd hs he hf ht _ ih =>
    obtain ⟨k, rfl⟩ := Nat.exists_eq_add_of_lt (Nat.lt_of_succ_le hn)
    exact .follow hd hs he hf ht (ih (by omega))
  | enter hd hs he hl _ ih => exact .enter hd hs he hl (ih hn)

theorem Walks.split (h : Walks fs follow n l (xs ++ ys) p) (hy : ys ≠ [])
    (hp : (∀ t ∈ ys, t = "") → ∃ m, p = .taken m) :
    ∃ m n', n' ≤ n ∧ Walks fs true n l xs (.taken m) ∧ Walks fs follow n' m ys p := by
  generalize hnames : xs ++ ys = names at h
  induction h generalizing xs with
  | done => exact absurd (List.append_eq_nil_iff.mp hnames).2 hy
  | stay hd hs h ih =>
    rcases List.append_eq_cons_iff.mp hnames with ⟨rfl, rfl⟩ | ⟨xs, rfl, rfl⟩
    · exact ⟨_, _, Nat.le_refl _, .done, .stay hd hs h⟩
    · obtain ⟨m, n', hn, hx, hy⟩ := ih hp rfl
      exact ⟨m, n', hn, .stay hd hs hx, hy⟩
  | up hd h ih =>
    rcases List.append_eq_cons_iff.mp hnames with ⟨rfl, rfl⟩ | ⟨xs, rfl, rfl⟩
    · exact ⟨_, _, Nat.le_refl _, .done, .up hd h⟩
    · obtain ⟨m, n', hn, hx, hy⟩ := ih hp rfl
      exact ⟨m, n', hn, .up hd hx, hy⟩
  | vacant hd hs he hr =>
    rcases List.append_eq_cons_iff.mp hnames with ⟨rfl, rfl⟩ | ⟨xs, rfl, rfl⟩
    · exact ⟨_, 0, Nat.zero_le _, .done, .vacant hd hs he hr⟩
    · obtain ⟨m, hm⟩ := hp fun t ht => hr t (List.mem_append_right _ ht)
      cases hm
  | keep hd hs he hf =>
    rcases List.append_eq_cons_iff.mp hnames with ⟨rfl, rfl⟩ | ⟨xs, rfl, h⟩
    · exact ⟨_, 0, Nat.zero_le _, .done, .keep hd hs he hf⟩
    · exact absurd (List.append_eq_nil_iff.mp h.symm).2 hy
  | follow hd hs he hf ht h ih =>
    rcases List.append_eq_cons_iff.mp hnames with ⟨rfl, rfl⟩ | ⟨xs, rfl, rfl⟩
    · exact ⟨_, _, Nat.le_refl _, .done, .follow hd hs he hf ht h⟩
    · obtain ⟨m, n', hn, hx, hy⟩ := ih hp (List.append_assoc ..)
      exact ⟨m, n', Nat.le_succ_of_le hn, .follow hd hs he (.inr rfl) ht hx, hy⟩
  | enter hd hs he hl h ih =>
    rcases List.append_eq_cons_iff.mp hnames with ⟨rfl, rfl⟩ | ⟨xs, rfl, rfl⟩
    · exact ⟨_, _, Nat.le_refl _, .done, .enter hd hs he hl h⟩
    · obtain ⟨m, n', hn, hx, hy⟩ := ih hp rfl
      exact ⟨m, n', hn, .enter hd hs he hl hx, hy⟩

/-- A walk that needs no more links can be put behind any other. -/
theorem Walks.append (h : Walks fs true n l xs (.taken m)) (h' : Walks fs follow 0 m ys p)
    (hy : ys ≠ []) : Walks fs follow n l (xs ++ ys) p := by
  generalize hp : Place.taken m = q at h
  induction h with
  | done =>
    obtain rfl := Place.taken.inj hp
    exact h'.mono (Nat.zero_le _)
  | stay hd hs _ ih => exact .stay hd hs (ih hp)
  | up hd _ ih => exact .up hd (ih hp)
  | vacant => cases hp
  | keep hd hs he hf => cases hf
  | follow hd hs he hf ht _ ih =>
    exact .follow hd hs he (.inl (by simp [hy])) ht (List.append_assoc .. ▸ ih hp)
  | enter hd hs he hl _ ih => exact .enter hd hs he hl (ih hp)

/-! ## The end of a walk -/

theorem Walks.entry?_vacant (h : Walks fs follow n l names (.vacant v slash)) :
    fs.entry? v = none := by
  generalize hp : Place.vacant v slash = p at h
  induction h with
  | vacant hd hs he hr =>
    cases hp
    exact he
  | stay _ _ _ ih | up _ _ ih | follow _ _ _ _ _ _ ih | enter _ _ _ _ _ ih => exact ih hp
  | _ => cases hp

/-- A walk that follows a link in last place would also have come to the link. -/
theorem Walks.kept (h : Walks fs true n l names (.taken m)) :
    ∃ k, Walks fs false n l names (.taken k) := by
  generalize hp : Place.taken m = p at h
  induction h with
  | done => exact ⟨_, .done⟩
  | stay hd hs _ ih =>
    obtain ⟨k, h⟩ := ih hp
    exact ⟨k, .stay hd hs h⟩
  | up hd _ ih =>
    obtain ⟨k, h⟩ := ih hp
    exact ⟨k, .up hd h⟩
  | vacant => cases hp
  | keep hd hs he hf => cases hf
  | @follow n l s target rest p hd hs he hf ht _ ih =>
    by_cases hrest : rest = []
    · subst hrest
      exact ⟨_, .keep hd hs he rfl⟩
    · obtain ⟨k, h⟩ := ih hp
      exact ⟨k, .follow hd hs he (.inl hrest) ht h⟩
  | enter hd hs he hl _ ih =>
    obtain ⟨k, h⟩ := ih hp
    exact ⟨k, .enter hd hs he hl h⟩

theorem Walks.last {s : String} (h : Walks fs false n l [s] p) (hs : Ordinary s) :
    fs.entry? l = some .directory ∧
      (p = .taken (l ++ [s]) ∨ p = .vacant (l ++ [s]) false) := by
  cases h with
  | stay _ hs' _ => exact absurd hs' (not_or.mpr ⟨hs.ne_empty, hs.ne_here⟩)
  | up _ _ => exact absurd rfl hs.ne_up
  | vacant hd _ _ _ => exact ⟨hd, .inr rfl⟩
  | keep hd _ _ _ => exact ⟨hd, .inl rfl⟩
  | follow _ _ _ hf _ _ => simp at hf
  | enter hd _ _ _ h =>
    cases h
    exact ⟨hd, .inl rfl⟩

theorem walks_last {s : String} (hd : fs.entry? l = some .directory) (hs : Ordinary s) :
    ∃ p, Walks fs false n l [s] p := by
  cases he : fs.entry? (l ++ [s]) with
  | none => exact ⟨_, .vacant hd hs he (List.forall_mem_nil _)⟩
  | some e =>
    by_cases hl : ∃ t, e = .link t
    · obtain ⟨t, rfl⟩ := hl
      exact ⟨_, .keep hd hs he rfl⟩
    · exact ⟨_, .enter hd hs he (not_exists.mp hl) .done⟩

/-! ## Larger file systems -/

def Within (fs fs' : FileSystem) : Prop := ∀ l e, fs.entry? l = some e → fs'.entry? l = some e

theorem Walks.within (h : Walks fs follow n l names (.taken m)) (hw : fs.Within fs') :
    Walks fs' follow n l names (.taken m) := by
  generalize hp : Place.taken m = p at h ⊢
  induction h with
  | done => exact .done
  | stay hd hs _ ih => exact .stay (hw _ _ hd) hs (ih hp)
  | up hd _ ih => exact .up (hw _ _ hd) (ih hp)
  | vacant => cases hp
  | keep hd hs he hf => exact .keep (hw _ _ hd) hs (hw _ _ he) hf
  | follow hd hs he hf ht _ ih => exact .follow (hw _ _ hd) hs (hw _ _ he) hf ht (ih hp)
  | enter hd hs he hl _ ih => exact .enter (hw _ _ hd) hs (hw _ _ he) hl (ih hp)

theorem Walks.congr (h : Walks fs follow n l names p) (he : ∀ l, fs'.entry? l = fs.entry? l) :
    Walks fs' follow n l names p := by
  induction h with
  | done => exact .done
  | stay hd hs _ ih => exact .stay ((he _).trans hd) hs ih
  | up hd _ ih => exact .up ((he _).trans hd) ih
  | vacant hd hs hv hr => exact .vacant ((he _).trans hd) hs ((he _).trans hv) hr
  | keep hd hs hk hf => exact .keep ((he _).trans hd) hs ((he _).trans hk) hf
  | follow hd hs hk hf ht _ ih => exact .follow ((he _).trans hd) hs ((he _).trans hk) hf ht ih
  | enter hd hs hk hl _ ih => exact .enter ((he _).trans hd) hs ((he _).trans hk) hl ih

theorem Walks.fill (h : Walks fs follow n l names (.vacant v slash)) (hw : fs.Within fs')
    (hv : fs'.entry? v = some .directory) : Walks fs' true n l names (.taken v) := by
  generalize hp : Place.vacant v slash = p at h
  induction h with
  | stay hd hs _ ih => exact .stay (hw _ _ hd) hs (ih hp)
  | up hd _ ih => exact .up (hw _ _ hd) (ih hp)
  | @vacant n l s rest hd hs he hr =>
    cases hp
    refine .enter (hw _ _ hd) hs hv (fun _ => Entry.noConfusion) ?_
    clear hs he
    induction rest with
    | nil => exact .done
    | cons t rest ih =>
      obtain ⟨ht, hr⟩ := List.forall_mem_cons.mp hr
      exact .stay hv (.inl ht) (ih hr)
  | follow hd hs he hf ht _ ih => exact .follow (hw _ _ hd) hs (hw _ _ he) (.inr rfl) ht (ih hp)
  | enter hd hs he hl _ ih => exact .enter (hw _ _ hd) hs (hw _ _ he) hl (ih hp)
  | _ => cases hp

end JobConsole.FileSystem
