import JobConsole.Proofs.Files.Path
import JobConsole.Proofs.Files.Walk

/-! # Looking paths up

A path that can be looked up is a walk from the root or from the current directory. A name behind the
path of a directory is looked up in this directory, and in no other.
-/

namespace JobConsole.FileSystem

@[mk_iff]
structure Usable (p : String) : Prop where
  no_nul : '\x00' ∉ p.toList
  ne_empty : p ≠ ""
  fits : p.utf8ByteSize ≤ maxPathBytes

instance (p : String) : Decidable (Usable p) := decidable_of_iff _ (usable_iff p).symm

def start (fs : FileSystem) (p : String) : Location := if Path.isAbsolute p then [] else fs.current

variable {fs : FileSystem} {follow : Bool} {p d s : String} {q : Place} {l m : Location} {n : Nat}
  {content : List UInt8}

theorem place_eq_ok_iff : fs.place follow p = .ok q ↔
    Usable p ∧ fs.Walks follow maxLinks (fs.start p) (Path.pieces p) q := by
  rw [place]
  constructor
  · intro h
    split at h
    · cases h
    next hn =>
      split at h
      · cases h
      next he =>
        split at h
        · cases h
        next hf => exact ⟨⟨by simpa using hn, he, Nat.not_lt.mp hf⟩, walk_eq_ok_iff.mp h⟩
  · rintro ⟨⟨hn, he, hf⟩, h⟩
    rw [if_neg (by simpa using hn), if_neg he, if_neg (Nat.not_lt.mpr hf)]
    exact walk_eq_ok_iff.mpr h

theorem find_eq_ok_iff : fs.find p = .ok l ↔
    Usable p ∧ fs.Walks true maxLinks (fs.start p) (Path.pieces p) (.taken l) := by
  rw [← place_eq_ok_iff, find]
  split <;> simp_all

theorem stat_eq_ok_iff {e : Entry} :
    fs.stat p = .ok e ↔ ∃ l, fs.find p = .ok l ∧ fs.entry? l = some e := by
  rw [stat]
  split
  next h => simp [h]
  next l h =>
    split
    next h' => simp [h, h']
    next h' => simp [h, h']

theorem isDirectory_iff :
    fs.isDirectory p = true ↔ ∃ l, fs.find p = .ok l ∧ fs.entry? l = some .directory := by
  rw [← stat_eq_ok_iff, isDirectory]
  split <;> simp_all

theorem readFile_eq_some_iff :
    fs.readFile p = some content ↔ ∃ l, fs.find p = .ok l ∧ fs.entry? l = some (.file content) := by
  rw [← stat_eq_ok_iff, readFile]
  split
  next h => simp [h]
  next h =>
    simp only [reduceCtorEq, false_iff]
    exact h content

theorem readFile_of_error {x : FileError} (h : fs.find p = .error x) : fs.readFile p = none := by
  refine Option.eq_none_iff_forall_ne_some.mpr fun content hr => ?_
  obtain ⟨l, hl, -⟩ := readFile_eq_some_iff.mp hr
  cases h.symm.trans hl

theorem readDirectory_eq_ok_iff {names : List String} : fs.readDirectory p = .ok names ↔
    ∃ l, fs.find p = .ok l ∧ fs.entry? l = some .directory ∧ names = fs.namesIn l := by
  rw [readDirectory]
  split
  next h => simp [h]
  next l h =>
    split
    next he => simp [h, he, eq_comm]
    next he =>
      have hne : fs.entry? l ≠ some .directory := he
      simp [h, hne]

/-! ## A name in a directory -/

theorem Walks.entry?_of_ne_nil {names : List String} (h : fs.Walks follow n l names q)
    (hn : names ≠ []) : fs.entry? l = some .directory := by
  cases h with
  | done => exact absurd rfl hn
  | _ => assumption

theorem Usable.join (h : Usable d) (hs : Path.IsName s)
    (hf : (Path.join d s).utf8ByteSize ≤ maxPathBytes) : Usable (Path.join d s) := by
  refine ⟨?_, Path.join_ne_empty hs.ne_empty, hf⟩
  rw [Path.join_of_isRelative hs.isRelative, Path.opened]
  split
  · simp [h.no_nul, hs.no_nul]
  · simp [h.no_nul, hs.no_nul]

theorem Usable.of_join (h : Usable (Path.join d s)) (hs : Path.isAbsolute s = false) :
    (d ≠ "" → Usable d) ∧ (s ≠ "" → Usable s) := by
  obtain ⟨x, hx⟩ := Path.exists_join_eq_append d hs
  have hn := h.no_nul
  have hf := h.fits
  rw [hx, String.toList_append, String.toList_append] at hn
  rw [hx, String.utf8ByteSize_append, String.utf8ByteSize_append] at hf
  constructor
  · exact fun hd => ⟨fun hm => hn (by simp [hm]), hd, by omega⟩
  · exact fun hne => ⟨fun hm => hn (by simp [hm]), hne, by omega⟩

theorem start_join (hs : Path.isAbsolute s = false) (hd : d ≠ "") :
    fs.start (Path.join d s) = fs.start d := by
  rw [start, Path.isAbsolute_join hs hd, start]

theorem Walks.eq_of_stay (h : fs.Walks follow n l [s] (.taken m)) (hs : s = "" ∨ s = ".") :
    m = l := by
  cases h with
  | stay _ _ h =>
    cases h
    rfl
  | up => exact absurd hs (by decide)
  | keep _ ho | follow _ ho | enter _ ho =>
    exact absurd hs (not_or.mpr ⟨ho.ne_empty, ho.ne_here⟩)

/-- A walk to a directory is not changed by a separator behind its last name. -/
theorem walks_concat_empty {xs : List String} (hl : fs.entry? m = some .directory) :
    fs.Walks true n l (xs ++ [""]) (.taken m) ↔ fs.Walks true n l xs (.taken m) := by
  constructor
  · intro h
    obtain ⟨k, n', -, hx, h⟩ := h.split (by simp) fun _ => ⟨m, rfl⟩
    exact h.eq_of_stay (.inl rfl) ▸ hx
  · exact fun h => h.append (.stay hl (.inl rfl) .done) (by simp)

theorem exists_of_place_join (hr : Path.isAbsolute s = false) (hs : ∃ t ∈ Path.pieces s, t ≠ "")
    (hd : d ≠ "") (h : fs.place follow (Path.join d s) = .ok q) :
    ∃ l n, n ≤ maxLinks ∧ fs.find d = .ok l ∧ fs.entry? l = some .directory ∧
      fs.Walks follow n l (Path.pieces s) q := by
  obtain ⟨hu, h⟩ := place_eq_ok_iff.mp h
  obtain ⟨t, ht, hne⟩ := hs
  obtain ⟨xs, hxs, hpieces⟩ := Path.exists_pieces_join hr hd
  rw [hxs, start_join hr hd] at h
  obtain ⟨l, n, hn, hx, h⟩ :=
    h.split (List.ne_nil_of_mem ht) fun hall => absurd (hall t ht) hne
  have hl := h.entry?_of_ne_nil (List.ne_nil_of_mem ht)
  refine ⟨l, n, hn, find_eq_ok_iff.mpr ⟨(hu.of_join hr).1 hd, ?_⟩, hl, h⟩
  rcases hpieces with hp | hp
  · rwa [hp]
  · rwa [hp, walks_concat_empty hl]

theorem place_join (hs : Path.IsName s) (hu : Usable (Path.join d s)) (hf : fs.find d = .ok l)
    (hl : fs.entry? l = some .directory) (h : fs.Walks follow 0 l [s] q) :
    fs.place follow (Path.join d s) = .ok q := by
  obtain ⟨hud, hf⟩ := find_eq_ok_iff.mp hf
  obtain ⟨xs, hxs, hpieces⟩ := Path.exists_pieces_join hs.isRelative hud.ne_empty
  refine place_eq_ok_iff.mpr ⟨hu, ?_⟩
  rw [hxs, hs.pieces_eq, start_join hs.isRelative hud.ne_empty]
  refine Walks.append ?_ h (by simp)
  rcases hpieces with hp | hp
  · rwa [hp] at hf
  · rwa [hp, walks_concat_empty hl] at hf

theorem place_of_isAbsolute (hp : Path.isAbsolute p = true) (m : Location)
    (h : fs.place follow p = .ok q) :
    FileSystem.place { fs with current := m } follow p = .ok q := by
  obtain ⟨hu, hw⟩ := place_eq_ok_iff.mp h
  have hstart : FileSystem.start { fs with current := m } p = fs.start p := by
    rw [start, if_pos hp, start, if_pos hp]
  refine place_eq_ok_iff.mpr ⟨hu, ?_⟩
  rw [hstart]
  exact hw.congr fun _ => rfl

theorem place_of_place_join (hs : ∃ t ∈ Path.pieces s, t ≠ "") (hf : fs.find d = .ok l)
    (h : fs.place follow (Path.join d s) = .ok q) :
    FileSystem.place { fs with current := l } follow s = .ok q := by
  by_cases hr : Path.isAbsolute s = true
  · rw [Path.join_of_isAbsolute hr] at h
    exact place_of_isAbsolute hr l h
  · have hr : Path.isAbsolute s = false := by simpa using hr
    have hd := (find_eq_ok_iff.mp hf).1.ne_empty
    obtain ⟨m, n, hn, hm, -, hw⟩ := exists_of_place_join hr hs hd h
    obtain rfl := Except.ok.inj (hm.symm.trans hf)
    have hne : s ≠ "" := by
      rintro rfl
      obtain ⟨t, ht, hne⟩ := hs
      exact hne (List.mem_singleton.mp ht)
    refine place_eq_ok_iff.mpr ⟨((place_eq_ok_iff.mp h).1.of_join hr).2 hne, ?_⟩
    have hstart : FileSystem.start { fs with current := m } s = m := by
      rw [start, if_neg (by simp [hr])]
    rw [hstart]
    exact (hw.mono hn).congr fun _ => rfl

theorem find_of_isAbsolute (hp : Path.isAbsolute p = true) (m : Location) (h : fs.find p = .ok l) :
    FileSystem.find { fs with current := m } p = .ok l := by
  rw [find_eq_ok_iff, ← place_eq_ok_iff] at h ⊢
  exact place_of_isAbsolute hp m h

/-- A path names something directly in the directory at a location, whether it is there or not. -/
def LiesIn (fs : FileSystem) (p : String) (l : Location) : Prop :=
  ∃ s, fs.place false p = .ok (.taken (l ++ [s])) ∨
    ∃ slash, fs.place false p = .ok (.vacant (l ++ [s]) slash)

theorem not_liesIn_of_error {e : FileError} (h : fs.place false p = .error e) : ¬fs.LiesIn p l := by
  rintro ⟨s, h' | ⟨slash, h'⟩⟩
  · cases h.symm.trans h'
  · cases h.symm.trans h'

theorem liesIn_join_iff (hs : Path.IsName s) (ho : Ordinary s) (hd : d ≠ "") :
    fs.LiesIn (Path.join d s) l ↔
      Usable (Path.join d s) ∧ fs.find d = .ok l ∧ fs.entry? l = some .directory := by
  constructor
  · rintro ⟨t, h⟩
    obtain ⟨q, hq, he⟩ : ∃ q, fs.place false (Path.join d s) = .ok q ∧
        (q = .taken (l ++ [t]) ∨ ∃ slash, q = .vacant (l ++ [t]) slash) := by
      rcases h with h | ⟨slash, h⟩
      · exact ⟨_, h, .inl rfl⟩
      · exact ⟨_, h, .inr ⟨slash, rfl⟩⟩
    obtain ⟨m, n, -, hf, hm, hw⟩ := exists_of_place_join hs.isRelative hs.exists_piece hd hq
    rw [hs.pieces_eq] at hw
    obtain ⟨-, hlast⟩ := hw.last ho
    have hml : m ++ [s] = l ++ [t] := by
      rcases hlast with rfl | rfl <;> rcases he with he | ⟨slash, he⟩ <;> simp_all
    obtain ⟨rfl, -⟩ := List.append_inj' hml rfl
    exact ⟨(place_eq_ok_iff.mp hq).1, hf, hm⟩
  · rintro ⟨hu, hf, hl⟩
    obtain ⟨q, hq⟩ := walks_last hl ho
    have hp := place_join hs hu hf hl hq
    obtain ⟨-, rfl | rfl⟩ := hq.last ho
    · exact ⟨s, .inl hp⟩
    · exact ⟨s, .inr ⟨false, hp⟩⟩

end JobConsole.FileSystem
