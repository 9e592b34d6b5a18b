import JobConsole.Job.Metadata
import JobConsole.Proofs.Dict
import JobConsole.Proofs.Text.Order

/-! # Merging metadata

After a merge a key has the value of the partial object if that has the key, and its old value
otherwise. So merges follow one another as if they were one, those without a common key in any order,
and of many merges the last that has a key counts.
-/

namespace JobConsole.Metadata

variable {m p q : Metadata} {ps : List Metadata} {key : String}

/-- The value under a key in the last of some objects that has the key. -/
def lastUnder (key : String) (ps : List Metadata) : Option Json :=
  (ps.filterMap (·.get? key)).getLast?

theorem get?_merge (m p : Metadata) (key : String) :
    (m.merge p).get? key = (p.get? key).or (m.get? key) :=
  Dict.get?_foldl_insert p.sorted m key

theorem get?_merge_of_notMem (m : Metadata) (h : key ∉ p.keys) :
    (m.merge p).get? key = m.get? key := by
  rw [get?_merge, Option.not_isSome_iff_eq_none.mp (mt Dict.isSome_get?_iff.mp h), Option.none_or]

theorem empty_merge (p : Metadata) : merge .empty p = p := by
  refine Dict.ext_get? fun key => ?_
  rw [get?_merge, Dict.get?_empty, Option.or_none]

theorem isSome_get?_merge (h : (m.get? key).isSome) (p : Metadata) :
    ((m.merge p).get? key).isSome := by
  rw [get?_merge, Option.isSome_or, h, Bool.or_true]

theorem merge_merge (m p q : Metadata) : (m.merge p).merge q = m.merge (p.merge q) := by
  refine Dict.ext_get? fun key => ?_
  simp only [get?_merge, Option.or_assoc]

theorem merge_comm_of_disjoint (h : ∀ key ∈ p.keys, key ∉ q.keys) (m : Metadata) :
    (m.merge p).merge q = (m.merge q).merge p := by
  refine Dict.ext_get? fun key => ?_
  simp only [get?_merge]
  cases hp : p.get? key with
  | none => rw [Option.none_or, Option.none_or]
  | some v =>
    have hq : q.get? key = none := by
      rw [← Option.not_isSome_iff_eq_none, Dict.isSome_get?_iff]
      exact h key (Dict.isSome_get?_iff.mp (hp ▸ rfl))
    simp only [hq, Option.none_or, Option.some_or]

theorem lastUnder_cons_cons (key : String) (m p : Metadata) (ps : List Metadata) :
    lastUnder key (m :: p :: ps) = lastUnder key (m.merge p :: ps) := by
  simp only [lastUnder, List.filterMap_cons, get?_merge]
  cases p.get? key <;> cases m.get? key <;> simp [List.getLast?_cons]

/-- Of many merges the last that has a key counts. -/
theorem get?_foldl_merge (ps : List Metadata) (m : Metadata) (key : String) :
    (ps.foldl merge m).get? key = lastUnder key (m :: ps) := by
  induction ps generalizing m with
  | nil =>
    simp only [List.foldl_nil, lastUnder, List.filterMap_cons]
    cases m.get? key <;> rfl
  | cons p ps ih => rw [List.foldl_cons, ih, lastUnder_cons_cons]

/-! ## The keys of a merge -/

theorem foldl_mergeWithKeys (es : List (String × Json)) (keys : List String) (m : Metadata) :
    es.foldl (fun x e => (x.1 ++ [e.1], x.2.insert e.1 e.2)) (keys, m) =
      (keys ++ es.map (·.1), es.foldl (fun d e => d.insert e.1 e.2) m) := by
  induction es generalizing keys m with
  | nil => simp
  | cons e es ih => simp [ih]

theorem mergeWithKeys_eq (m p : Metadata) : m.mergeWithKeys p = (p.keys, m.merge p) :=
  foldl_mergeWithKeys p.entries [] m

theorem keys_pairwise_encode (m : Metadata) :
    m.keys.Pairwise fun k l => Text.Utf8.encode k < Text.Utf8.encode l :=
  m.keys_sorted.imp Text.Utf8.encode_lt_of_lt

end JobConsole.Metadata
