import JobConsole.Dict
import Mathlib.Data.List.Nodup
import Mathlib.Data.Option.Basic

/-! # Dictionaries by their keys

A dictionary is what it holds under each key: two that hold the same are equal, as the order of the
entries is fixed. Inserting entries with ascending keys one after the other puts them in front of what
was there.
-/

namespace JobConsole.Dict

variable {α : Type} {d d' : Dict α} {k : String} {v : α}

theorem lookup_eq_some_iff_mem {es : List (String × α)} (h : es.Pairwise (fun a b => a.1 ≠ b.1)) :
    es.lookup k = some v ↔ (k, v) ∈ es := by
  induction es with
  | nil => simp
  | cons e es ih =>
    obtain ⟨l, w⟩ := e
    obtain ⟨hl, hes⟩ := List.pairwise_cons.mp h
    rw [lookup_cons_eq, List.mem_cons]
    by_cases hk : k = l
    · subst hk
      have hn : (k, v) ∉ es := fun hm => hl _ hm rfl
      simp [hn, eq_comm]
    · simp [hk, ih hes]

theorem get?_eq_some_iff : d.get? k = some v ↔ (k, v) ∈ d.entries :=
  lookup_eq_some_iff_mem (d.sorted.imp String.ne_of_lt)

theorem isSome_get?_iff : (d.get? k).isSome ↔ k ∈ d.keys := by
  simp [Option.isSome_iff_exists, get?_eq_some_iff, keys]

theorem nodup_entries (d : Dict α) : d.entries.Nodup := by
  refine d.sorted.imp ?_
  rintro a _ h rfl
  exact String.lt_irrefl _ h

theorem ext_get? (h : ∀ k, d.get? k = d'.get? k) : d = d' := by
  have hmem (e : String × α) : e ∈ d.entries ↔ e ∈ d'.entries := by
    rw [← get?_eq_some_iff, ← get?_eq_some_iff, h]
  have hperm := (List.perm_ext_iff_of_nodup d.nodup_entries d'.nodup_entries).mpr hmem
  have hentries : d.entries = d'.entries :=
    hperm.eq_of_pairwise (fun _ _ _ _ hab hba => absurd hba (String.lt_asymm hab)) d.sorted d'.sorted
  cases d
  cases d'
  cases hentries
  rfl

theorem get?_foldl_insert_of_notMem {es : List (String × α)} (h : ∀ e ∈ es, e.1 ≠ k) (d : Dict α) :
    (es.foldl (fun d e => d.insert e.1 e.2) d).get? k = d.get? k := by
  induction es generalizing d with
  | nil => rfl
  | cons e es ih =>
    obtain ⟨he, hes⟩ := List.forall_mem_cons.mp h
    rw [List.foldl_cons, ih hes, get?_insert, if_neg he.symm]

theorem get?_foldl_insert {es : List (String × α)} (h : es.Pairwise (fun a b => a.1 < b.1))
    (d : Dict α) (k : String) :
    (es.foldl (fun d e => d.insert e.1 e.2) d).get? k = (es.lookup k).or (d.get? k) := by
  induction es generalizing d with
  | nil => rfl
  | cons e es ih =>
    obtain ⟨l, w⟩ := e
    obtain ⟨hl, hes⟩ := List.pairwise_cons.mp h
    rw [List.foldl_cons, ih hes, get?_insert, lookup_cons_eq]
    by_cases hk : k = l
    · subst hk
      have hn : es.lookup k = none := by
        refine Option.eq_none_iff_forall_ne_some.mpr fun v hv => ?_
        have hm := (lookup_eq_some_iff_mem (hes.imp String.ne_of_lt)).mp hv
        exact String.lt_irrefl k (hl _ hm)
      rw [if_pos rfl, if_pos rfl, hn, Option.none_or, Option.some_or]
    · rw [if_neg hk, if_neg hk]

end JobConsole.Dict
