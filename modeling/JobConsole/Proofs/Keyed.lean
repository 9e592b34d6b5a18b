import Mathlib.Data.List.Nodup

/-! # Lists with keys

Jobs, tasks and receivers are kept in lists and found by a key. A change that leaves every key as it
was commutes with finding, and replacing the one element with a key moves every count by that
element alone.
-/

namespace JobConsole.Keyed

variable {α β : Type} {key : α → β} {l : List α} {a : α} {b : β}

theorem map_key_map {f : α → α} (hf : ∀ a, key (f a) = key a) (l : List α) :
    (l.map f).map key = l.map key := by
  rw [List.map_map]
  exact List.map_congr_left fun a _ => hf a

variable [DecidableEq β]

theorem key_of_find? (h : l.find? (key · = b) = some a) : key a = b := by
  simpa using List.find?_some h

theorem find?_map {f : α → α} (hf : ∀ a, key (f a) = key a) (l : List α) (b : β) :
    (l.map f).find? (key · = b) = (l.find? (key · = b)).map f := by
  have h : (fun a => decide (key a = b)) ∘ f = fun a => decide (key a = b) := by
    funext a
    simp only [Function.comp_apply, hf]
  rw [List.find?_map, h]

def replace (key : α → β) (a : α) (u : α) : α := if key u = key a then a else u

theorem key_replace (a u : α) : key (replace key a u) = key u := by
  unfold replace
  split
  next h => exact h.symm
  next => rfl

theorem replace_of_ne {u : α} (h : key u ≠ key a) : replace key a u = u := if_neg h

theorem isSome_find?_iff : (l.find? (key · = b)).isSome ↔ b ∈ l.map key := by
  simp only [List.find?_isSome, decide_eq_true_eq, List.mem_map]

theorem find?_eq_none_iff : l.find? (key · = b) = none ↔ b ∉ l.map key := by
  rw [← isSome_find?_iff, Option.not_isSome_iff_eq_none]

theorem find?_of_mem (hn : (l.map key).Nodup) (h : a ∈ l) : l.find? (key · = key a) = some a := by
  obtain ⟨u, hu⟩ : ∃ u, l.find? (key · = key a) = some u :=
    Option.isSome_iff_exists.mp (isSome_find?_iff.mpr (List.mem_map_of_mem h))
  rw [hu, List.inj_on_of_nodup_map hn (List.mem_of_find?_eq_some hu) h (key_of_find? hu)]

/-- Replacing the element with a key moves a count by that element alone. -/
theorem countP_map_replace {p : α → Bool} {u : α} (hn : (l.map key).Nodup)
    (h : l.find? (key · = key a) = some u) :
    (l.map (replace key a)).countP p + (if p u then 1 else 0) =
      l.countP p + (if p a then 1 else 0) := by
  induction l with
  | nil => simp at h
  | cons v l ih =>
    obtain ⟨hv, hn⟩ := List.nodup_cons.mp hn
    rw [List.map_cons, List.countP_cons, List.countP_cons]
    by_cases he : key v = key a
    · have huv : v = u := by simpa [he] using h
      have hl : l.map (replace key a) = l := by
        refine (List.map_congr_left fun w hw => replace_of_ne fun hk => hv ?_).trans l.map_id
        exact he.trans hk.symm ▸ List.mem_map_of_mem hw
      have hr : replace key a v = a := if_pos he
      rw [hl, hr, huv]
      omega
    · have h' : l.find? (key · = key a) = some u := by simpa [he] using h
      have := ih hn h'
      rw [replace_of_ne he]
      omega

theorem countP_eq_countP_keys (hn : (l.map key).Nodup) (p : α → Bool) :
    l.countP p = (l.map key).countP fun b => (l.find? (key · = b)).any p := by
  rw [List.countP_map]
  refine List.countP_congr fun a ha => ?_
  simp [find?_of_mem hn ha]

end JobConsole.Keyed
