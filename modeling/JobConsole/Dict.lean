/-! # Dictionaries with ordered keys

A dictionary holds one value per key and lists its entries by ascending key. Keys compare character
by character, which is also the order of their UTF-8 bytes. Inserting replaces the value of a key
that is already there.
-/

namespace JobConsole

structure Dict (α : Type) where
  entries : List (String × α)
  sorted : entries.Pairwise (fun a b => a.1 < b.1)

namespace Dict

variable {α : Type}

def empty : Dict α := ⟨[], .nil⟩

instance : EmptyCollection (Dict α) := ⟨empty⟩

instance : Inhabited (Dict α) := ⟨empty⟩

def insertEntry (k : String) (v : α) : List (String × α) → List (String × α)
  | [] => [(k, v)]
  | (l, w) :: r =>
    if k < l then (k, v) :: (l, w) :: r
    else if k = l then (k, v) :: r
    else (l, w) :: insertEntry k v r

theorem mem_insertEntry {k : String} {v : α} {e : String × α} {s : List (String × α)}
    (h : e ∈ insertEntry k v s) : e = (k, v) ∨ e ∈ s := by
  induction s with
  | nil => simpa [insertEntry] using h
  | cons f r ih =>
    obtain ⟨l, w⟩ := f
    simp only [insertEntry] at h
    split at h
    · simpa using h
    · split at h
      · rcases List.mem_cons.mp h with h | h
        · exact .inl h
        · exact .inr (List.mem_cons_of_mem _ h)
      · rcases List.mem_cons.mp h with h | h
        · exact .inr (h ▸ List.mem_cons_self)
        · exact (ih h).imp_right (List.mem_cons_of_mem _)

theorem pairwise_insertEntry {k : String} {v : α} {s : List (String × α)}
    (h : s.Pairwise (fun a b => a.1 < b.1)) :
    (insertEntry k v s).Pairwise (fun a b => a.1 < b.1) := by
  induction s with
  | nil => simp [insertEntry]
  | cons f r ih =>
    obtain ⟨l, w⟩ := f
    obtain ⟨hl, hr⟩ := List.pairwise_cons.mp h
    simp only [insertEntry]
    split
    next hk =>
      refine List.pairwise_cons.mpr ⟨?_, h⟩
      intro e he
      rcases List.mem_cons.mp he with rfl | he
      · exact hk
      · exact String.lt_trans hk (hl e he)
    next hk =>
      split
      next he => exact List.pairwise_cons.mpr ⟨fun e h' => he ▸ hl e h', hr⟩
      next he =>
        refine List.pairwise_cons.mpr ⟨?_, ih hr⟩
        intro e h'
        rcases mem_insertEntry h' with rfl | h'
        · have : l ≤ k := String.not_lt.mp hk
          exact Decidable.byContradiction
            fun hn => he (String.le_antisymm (String.not_lt.mp hn) this)
        · exact hl e h'

def insert (d : Dict α) (k : String) (v : α) : Dict α :=
  ⟨insertEntry k v d.entries, pairwise_insertEntry d.sorted⟩

def get? (d : Dict α) (k : String) : Option α :=
  d.entries.lookup k

def keys (d : Dict α) : List String :=
  d.entries.map (·.1)

/-- The entries in the order given; of two entries with one key the later wins. -/
def ofList (s : List (String × α)) : Dict α :=
  s.foldl (fun d e => d.insert e.1 e.2) empty

theorem keys_sorted (d : Dict α) : d.keys.Pairwise (· < ·) :=
  List.pairwise_map.mpr d.sorted

theorem lookup_cons_eq (k : String) (v : α) (r : List (String × α)) (x : String) :
    ((k, v) :: r).lookup x = if x = k then some v else r.lookup x := by
  rw [List.lookup_cons]
  by_cases h : x = k
  · rw [beq_iff_eq.mpr h, if_pos h]
  · rw [beq_false_of_ne h, if_neg h]

theorem lookup_insertEntry (k : String) (v : α) (s : List (String × α)) (x : String) :
    (insertEntry k v s).lookup x = if x = k then some v else s.lookup x := by
  induction s with
  | nil => exact lookup_cons_eq k v [] x
  | cons f r ih =>
    obtain ⟨l, w⟩ := f
    simp only [insertEntry]
    split
    · exact lookup_cons_eq k v _ x
    · split
      next he =>
        subst he
        rw [lookup_cons_eq, lookup_cons_eq]
        by_cases h : x = k
        · rw [if_pos h, if_pos h]
        · rw [if_neg h, if_neg h, if_neg h]
      next he =>
        rw [lookup_cons_eq, lookup_cons_eq, ih]
        by_cases h : x = l
        · subst h
          rw [if_pos rfl, if_neg (Ne.symm he), if_pos rfl]
        · rw [if_neg h, if_neg h]

@[simp] theorem get?_insert (d : Dict α) (k : String) (v : α) (x : String) :
    (d.insert k v).get? x = if x = k then some v else d.get? x :=
  lookup_insertEntry k v d.entries x

@[simp] theorem get?_empty (x : String) : (empty : Dict α).get? x = none := rfl

end Dict

end JobConsole
