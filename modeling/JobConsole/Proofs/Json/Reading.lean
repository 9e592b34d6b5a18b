import JobConsole.Json.Reader
import JobConsole.Proofs.Dict
import JobConsole.Proofs.Json.Document

/-! # Reading printed texts

A value without floating numbers is read back from its text, with the members of every object in
ascending order, as long as it is not nested too deep. Typed readers get what was written for them.
-/

namespace JobConsole.Json

/-! ## Numbers -/

theorem ofDigits_toDigits (n : Nat) : Numeral.ofDigits ((Nat.toDigits 10 n).map digitOf) = n := by
  rw [Numeral.ofDigits, List.foldl_map]
  exact (Nat.ofDigitChars_eq_foldl.symm).trans (Nat.ofDigitChars_toDigits (by decide) (by decide))

theorem value?_numeralOf {n : Int} (h : isExactNumber (.int n) = true) :
    (numeralOf n).value? = some (.int n) := by
  simp only [isExactNumber, Bool.and_eq_true, decide_eq_true_eq] at h
  have hlimit : Numeral.wordLimit = 18446744073709551616 := rfl
  have hpow : Nat.pow 2 63 = 9223372036854775808 := rfl
  have hpow' : Nat.pow 2 64 = 18446744073709551616 := rfl
  rw [hpow, hpow'] at h
  simp only [Numeral.value?, numeralOf, ofDigits_toDigits, hlimit, hpow]
  rw [if_pos ⟨trivial, trivial, by omega⟩]
  by_cases hn : n < 0
  · have hvalue : -(n.natAbs : Int) = n := by omega
    rw [decide_eq_true hn, if_neg (by decide), if_pos (by omega), hvalue]
  · have hvalue : (n.natAbs : Int) = n := by omega
    rw [decide_eq_false hn, if_pos (by decide), hvalue]

/-! ## Free values -/

mutual

def depth : Json → Nat
  | .array items => itemsDepth items + 1
  | .object members => membersDepth members + 1
  | _ => 0

def itemsDepth : List Json → Nat
  | [] => 0
  | v :: r => max (depth v) (itemsDepth r)

def membersDepth : List (String × Json) → Nat
  | [] => 0
  | (_, v) :: r => max (depth v) (membersDepth r)

end

mutual

/-- The value with the members of its objects in ascending order, and the last one under each key. -/
def arranged : Json → Json
  | .array items => .array (arrangedItems items)
  | .object members => .ofDict (.ofList (arrangedMembers members))
  | v => v

def arrangedItems : List Json → List Json
  | [] => []
  | v :: r => arranged v :: arrangedItems r

def arrangedMembers : List (String × Json) → List (String × Json)
  | [] => []
  | (k, v) :: r => (k, arranged v) :: arrangedMembers r

end

theorem arrangedMembers_eq_map (r : List (String × Json)) :
    arrangedMembers r = r.map fun e => (e.1, arranged e.2) := by
  induction r with
  | nil => rfl
  | cons e r ih => rw [arrangedMembers, ih, List.map_cons]

mutual

theorem readJson_node : ∀ (v : Json) (room : Nat), isExact v = true → depth v ≤ room →
    readJson room (node v) = .ok (arranged v)
  | .null, _, _, _ | .bool _, _, _, _ | .text _, _, _, _ => rfl
  | .number (.int n), _, h, _ => by rw [node, readJson, value?_numeralOf h]; rfl
  | .number (.double _), _, h, _ => absurd h Bool.false_ne_true
  | .array items, 0, _, hd => absurd hd (Nat.not_succ_le_zero _)
  | .array items, room + 1, h, hd => by
    have hitems := readItems_itemsOf items room h (Nat.le_of_succ_le_succ hd)
    rw [node, readJson, hitems]
    rfl
  | .object members, 0, _, hd => absurd hd (Nat.not_succ_le_zero _)
  | .object members, room + 1, h, hd => by
    have hmembers := readEntries_entriesOf members room .empty h (Nat.le_of_succ_le_succ hd)
    rw [node, readJson, hmembers]
    rfl

theorem readItems_itemsOf : ∀ (r : List Json) (room : Nat), areExact r = true →
    itemsDepth r ≤ room → readItems room (itemsOf r) = .ok (arrangedItems r)
  | [], _, _, _ => rfl
  | v :: r, room, h, hd => by
    obtain ⟨hv, hr⟩ := Bool.and_eq_true_iff.mp h
    have hvalue := readJson_node v room hv (Nat.le_trans (Nat.le_max_left ..) hd)
    have hitems := readItems_itemsOf r room hr (Nat.le_trans (Nat.le_max_right ..) hd)
    rw [itemsOf, readItems, hvalue, hitems]
    rfl

theorem readEntries_entriesOf : ∀ (r : List (String × Json)) (room : Nat) (d : Dict Json),
    haveExact r = true → membersDepth r ≤ room →
    readEntries room d (entriesOf r) =
      .ok ((arrangedMembers r).foldl (fun d e => d.insert e.1 e.2) d)
  | [], _, _, _, _ => rfl
  | (k, v) :: r, room, d, h, hd => by
    obtain ⟨hv, hr⟩ := Bool.and_eq_true_iff.mp h
    have hvalue := readJson_node v room hv (Nat.le_trans (Nat.le_max_left ..) hd)
    have hmembers := readEntries_entriesOf r room (d.insert k (arranged v)) hr
      (Nat.le_trans (Nat.le_max_right ..) hd)
    rw [entriesOf, readEntries, hvalue]
    exact hmembers

end

mutual

def isArranged : Json → Bool
  | .array items => areArranged items
  | .object members => haveArranged members && decide (members.Pairwise fun a b => a.1 < b.1)
  | _ => true

def areArranged : List Json → Bool
  | [] => true
  | v :: r => isArranged v && areArranged r

def haveArranged : List (String × Json) → Bool
  | [] => true
  | (_, v) :: r => isArranged v && haveArranged r

end

theorem ofList_of_pairwise {es : List (String × Json)} (h : es.Pairwise fun a b => a.1 < b.1) :
    Dict.ofList es = ⟨es, h⟩ := by
  refine Dict.ext_get? fun k => ?_
  rw [Dict.ofList, Dict.get?_foldl_insert h, Dict.get?_empty, Option.or_none]
  rfl

mutual

theorem arranged_eq : ∀ v : Json, isArranged v = true → arranged v = v
  | .null, _ | .bool _, _ | .number _, _ | .text _, _ => rfl
  | .array items, h => congrArg Json.array (arrangedItems_eq items h)
  | .object members, h => by
    obtain ⟨hmembers, hp⟩ := Bool.and_eq_true_iff.mp h
    rw [arranged, arrangedMembers_eq members hmembers, ofList_of_pairwise (of_decide_eq_true hp)]
    rfl

theorem arrangedItems_eq : ∀ r : List Json, areArranged r = true → arrangedItems r = r
  | [], _ => rfl
  | v :: r, h => by
    obtain ⟨hv, hr⟩ := Bool.and_eq_true_iff.mp h
    rw [arrangedItems, arranged_eq v hv, arrangedItems_eq r hr]

theorem arrangedMembers_eq : ∀ r : List (String × Json), haveArranged r = true →
    arrangedMembers r = r
  | [], _ => rfl
  | (k, v) :: r, h => by
    obtain ⟨hv, hr⟩ := Bool.and_eq_true_iff.mp h
    rw [arrangedMembers, arranged_eq v hv, arrangedMembers_eq r hr]

end

/-- What is written is read, up to the order of members. -/
theorem decode_render {v : Json} (h : v.isExact = true) (hd : v.depth ≤ maxDepth) :
    decode json v.render = .ok v.arranged := by
  rw [decode, document_render h]
  simp only [json, readJson_node v maxDepth h hd, ↓reduceIte]

end JobConsole.Json
