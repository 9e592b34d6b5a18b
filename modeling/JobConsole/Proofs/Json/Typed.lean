import JobConsole.Proofs.Json.Reading
import Mathlib.Algebra.Order.Ring.Int

/-! # Typed values read back

A reader of a type gets a value out of the JSON form it was written in, wherever that form stands with
room for its levels. A record is read member by member, and each member fills one field of its draft.
-/

namespace JobConsole.Json

/-- The reader gets `a` out of `v`, wherever there is room for it. -/
def Reads {α : Type} (f : Reader α) (v : Json) (a : α) : Prop :=
  ∀ c : Reading, depth v ≤ c.room → f c (node v) = .ok a

variable {α β : Type} {f : Reader α} {a : α} {v : Json} {c : Reading}

theorem Reads.map (h : Reads f v a) (g : α → β) : Reads (fun c n => (f c n).map g) v (g a) :=
  fun c hd => congrArg (Except.map g) (h c hd)

/-! ## Scalars -/

theorem reads_string (s : String) : Reads string (.text s) s := fun _ _ => rfl

theorem reads_parsed {p : String → Option α} {s : String} (h : p s = some a) :
    Reads (parsed p) (.text s) a :=
  fun _ _ => congrArg (orFault .mismatched) h

theorem reads_name {find : String → Option α} {s : String} (h : find s = some a) :
    Reads (name find) (.text s) a :=
  fun _ _ => congrArg (orFault .mismatched) h

theorem reads_integer {low high n : Int} (hn : isExact (.int n) = true)
    (h : low ≤ n ∧ n < high) : Reads (integer low high) (.int n) n := by
  intro c _
  rw [int, isExact] at hn
  rw [int, node, integer]
  simp only [value?_numeralOf hn, if_pos h]

theorem isExact_int {n : Int} (h : -2 ^ 63 ≤ n ∧ n < 2 ^ 64) : isExact (.int n) = true := by
  simp only [int, isExact, isExactNumber, Bool.and_eq_true, decide_eq_true_eq, Nat.pow_eq]
  omega

theorem isExact_nat {n : Nat} (h : n < 2 ^ 64) : isExact (.nat n) = true := by
  have hhigh : (n : Int) < 2 ^ 64 := by exact_mod_cast h
  have hlow : -2 ^ 63 ≤ (n : Int) := by omega
  exact isExact_int (n := n) ⟨hlow, hhigh⟩

theorem reads_unsigned {bits n : Nat} (hbits : bits ≤ 64) (h : n < 2 ^ bits) :
    Reads (unsigned bits) (.nat n) n := by
  have hword : n < 2 ^ 64 := Nat.lt_of_lt_of_le h (Nat.pow_le_pow_right (by decide) hbits)
  have hrange : (0 : Int) ≤ n ∧ (n : Int) < (Nat.pow 2 bits : Nat) :=
    ⟨Int.natCast_nonneg n, Int.ofNat_lt.mpr h⟩
  exact (reads_integer (isExact_nat hword) hrange).map Int.toNat

theorem reads_signed {bits : Nat} {n : Int} (hbits : bits ≤ 64)
    (h : -2 ^ (bits - 1) ≤ n ∧ n < 2 ^ (bits - 1)) : Reads (signed bits) (.int n) n := by
  have hhalf : (2 : Nat) ^ (bits - 1) ≤ 2 ^ 63 := Nat.pow_le_pow_right (by decide) (by omega)
  have hcast : ((2 ^ (bits - 1) : Nat) : Int) = 2 ^ (bits - 1) := by norm_cast
  rw [← hcast] at h
  have hexact : isExact (.int n) = true := isExact_int (by omega)
  exact reads_integer hexact h

theorem optional_of_ne_null {n : Node} (h : n ≠ .null) : optional f c n = (f c n).map some := by
  cases n with
  | null => exact absurd rfl h
  | _ => rfl

theorem node_ne_null (h : v ≠ .null) : node v ≠ .null := by
  intro hn
  cases v with
  | null => exact h rfl
  | number n => cases n <;> cases hn
  | _ => cases hn

theorem reads_optional (h : Reads f v a) (hv : v ≠ .null) : Reads (optional f) v (some a) := by
  intro c hd
  rw [optional_of_ne_null (node_ne_null hv), h c hd]
  rfl

theorem reads_orNull {g : α → Json} {o : Option α} (h : ∀ a ∈ o, Reads f (g a) a)
    (hg : ∀ a ∈ o, g a ≠ .null) : Reads (optional f) (.orNull g o) o := by
  cases o with
  | none => exact fun _ _ => rfl
  | some a => exact reads_optional (h a rfl) (hg a rfl)

theorem isExact_orNull {g : α → Json} {o : Option α} (h : ∀ a ∈ o, isExact (g a) = true) :
    isExact (.orNull g o) = true := by
  cases o with
  | none => rfl
  | some a => exact h a rfl

theorem depth_orNull_eq_zero {g : α → Json} (h : ∀ a, depth (g a) = 0) (o : Option α) :
    depth (.orNull g o) = 0 := by
  cases o with
  | none => rfl
  | some a => exact h a

theorem reads_orNull_text (o : Option String) : Reads (optional string) (.orNull .text o) o :=
  reads_orNull (fun s _ => reads_string s) fun _ _ hs => by cases hs

theorem reads_json (h : v.isExact = true) (ha : v.isArranged = true) : Reads json v v := by
  intro c hd
  rw [json, readJson_node v c.room h hd, arranged_eq v ha]

/-! ## Lists -/

theorem inside_of_lt {n : Nat} (h : n < c.room) :
    ∃ c', c.inside = .ok c' ∧ n ≤ c'.room := by
  obtain ⟨room, buffered⟩ := c
  cases room with
  | zero => exact absurd h (Nat.not_lt_zero n)
  | succ room => exact ⟨⟨room, buffered⟩, rfl, Nat.le_of_lt_succ h⟩

theorem readAll_itemsOf {g : α → Json} {l : List α} (h : ∀ a ∈ l, Reads f (g a) a)
    (hd : itemsDepth (l.map g) ≤ c.room) : readAll (f c) (itemsOf (l.map g)) = .ok l := by
  induction l with
  | nil => rfl
  | cons a l ih =>
    obtain ⟨ha, hl⟩ := List.forall_mem_cons.mp h
    rw [List.map_cons, itemsOf, readAll, ha c (Nat.le_trans (Nat.le_max_left ..) hd)]
    simp only [ih hl (Nat.le_trans (Nat.le_max_right ..) hd)]
    rfl

theorem areExact_map {g : α → Json} {l : List α} (h : ∀ a ∈ l, isExact (g a) = true) :
    areExact (l.map g) = true := by
  induction l with
  | nil => rfl
  | cons a l ih =>
    obtain ⟨ha, hl⟩ := List.forall_mem_cons.mp h
    exact Bool.and_eq_true_iff.mpr ⟨ha, ih hl⟩

theorem itemsDepth_map_le {g : α → Json} {l : List α} {n : Nat} (h : ∀ a ∈ l, depth (g a) ≤ n) :
    itemsDepth (l.map g) ≤ n := by
  induction l with
  | nil => exact Nat.zero_le n
  | cons a l ih =>
    obtain ⟨ha, hl⟩ := List.forall_mem_cons.mp h
    exact Nat.max_le.mpr ⟨ha, ih hl⟩

theorem reads_list {g : α → Json} {l : List α} (h : ∀ a ∈ l, Reads f (g a) a) :
    Reads (list f) (.array (l.map g)) l := by
  intro c hd
  obtain ⟨c', hc, hd'⟩ := inside_of_lt hd
  rw [node, list, hc]
  exact readAll_itemsOf h hd'

/-! ## Records -/

variable {δ : Type} {ms : List (Member δ)} {d d' : δ} {r r' : List (String × Json)}

/-- Reading the members of an object one after the other takes a draft to another one. -/
inductive Fills (ms : List (Member δ)) : δ → List (String × Json) → δ → Prop
  | nil (d : δ) : Fills ms d [] d
  | cons {d d' d'' : δ} {m : Member δ} {k : String} {v : Json} {r : List (String × Json)}
      (known : ms.find? (·.name = k) = some m) (free : m.isFilled d = false)
      (reads : Reads (fun c n => m.read c n d) v d') (rest : Fills ms d' r d'') :
      Fills ms d ((k, v) :: r) d''

theorem fillFromEntries_of_fills (h : Fills ms d r d') (hd : membersDepth r ≤ c.room) :
    fillFromEntries ms c d (entriesOf r) = .ok d' := by
  induction h with
  | nil => rfl
  | cons known free reads _ ih =>
    rw [entriesOf, fillFromEntries, known]
    simp only [free, Bool.false_eq_true, if_false, reads c (Nat.le_trans (Nat.le_max_left ..) hd)]
    exact ih (Nat.le_trans (Nat.le_max_right ..) hd)

theorem reads_record {finish : δ → Option α} (h : Fills ms d r d') (hf : finish d' = some a) :
    Reads (record ms d finish) (.object r) a := by
  intro c hd
  obtain ⟨c', hc, hd'⟩ := inside_of_lt hd
  rw [node, record, hc]
  simp only [bind, Except.bind, fillFromEntries_of_fills h hd', hf]
  rfl

/-! ## Flattened records -/

def nodesOf (r : List (String × Json)) : List (String × Node) := r.map fun e => (e.1, node e.2)

theorem ofList_nodesOf (r : List (String × Json)) : Entries.ofList (nodesOf r) = entriesOf r := by
  induction r with
  | nil => rfl
  | cons e r ih => exact congrArg (Entries.cons (some e.1) (node e.2)) ih

theorem fromOthers_of_fills {finish : δ → Option α} (h : Fills ms d r d')
    (hd : membersDepth r ≤ maxDepth) (hf : finish d' = some a) :
    fromOthers ms d finish (nodesOf r) = .ok a := by
  rw [fromOthers, ofList_nodesOf, fillFromEntries_of_fills h hd]
  simp only [hf]
  rfl

theorem fillAndCollect_of_fills (h : Fills ms d r d') (hd : membersDepth r ≤ c.room)
    (others : List (String × Node)) (r' : List (String × Json)) :
    fillAndCollect ms c d others (entriesOf (r ++ r')) =
      fillAndCollect ms c d' others (entriesOf r') := by
  induction h with
  | nil => rfl
  | cons known free reads _ ih =>
    rw [List.cons_append, entriesOf, fillAndCollect, known]
    simp only [free, Bool.false_eq_true, if_false, reads c (Nat.le_trans (Nat.le_max_left ..) hd)]
    exact ih (Nat.le_trans (Nat.le_max_right ..) hd)

/-- Members of other names are taken in whole, in their order. -/
theorem fillAndCollect_unknown (h : ∀ e ∈ r, ms.find? (·.name = e.1) = none)
    (hr : haveExact r = true) (hd : membersDepth r ≤ c.room) (others : List (String × Node)) :
    fillAndCollect ms c d others (entriesOf r) = .ok (d, others.reverse ++ nodesOf r) := by
  induction r generalizing others with
  | nil => rw [nodesOf, List.map_nil, List.append_nil]; rfl
  | cons e r ih =>
    obtain ⟨k, v⟩ := e
    obtain ⟨he, hrest⟩ := List.forall_mem_cons.mp h
    obtain ⟨hv, hr⟩ := Bool.and_eq_true_iff.mp hr
    have hvalue := readJson_node v c.room hv (Nat.le_trans (Nat.le_max_left ..) hd)
    rw [entriesOf, fillAndCollect, he, hvalue]
    simp only [ih hrest hr (Nat.le_trans (Nat.le_max_right ..) hd), List.reverse_cons,
      List.append_assoc, List.singleton_append]
    rfl

theorem membersDepth_append (r r' : List (String × Json)) :
    membersDepth (r ++ r') = max (membersDepth r) (membersDepth r') := by
  induction r with
  | nil => exact (Nat.zero_max _).symm
  | cons e r ih => rw [List.cons_append, membersDepth, ih, membersDepth, Nat.max_assoc]

theorem reads_flattened {rest : List (String × Node) → Except Fault β}
    {finish : δ → β → Option α} {b : β} (h : Fills ms d r d')
    (hother : ∀ e ∈ r', ms.find? (·.name = e.1) = none) (hr' : haveExact r' = true)
    (hrest : rest (nodesOf r') = .ok b) (hf : finish d' b = some a) :
    Reads (flattened ms d rest finish) (.object (r ++ r')) a := by
  intro c hd
  obtain ⟨c', hc, hd'⟩ := inside_of_lt hd
  rw [membersDepth_append] at hd'
  have hown := fillAndCollect_of_fills h (Nat.le_trans (Nat.le_max_left ..) hd') [] r'
  rw [fillAndCollect_unknown hother hr' (Nat.le_trans (Nat.le_max_right ..) hd')] at hown
  rw [node, flattened, hc]
  simp only [bind, Except.bind, hown, List.reverse_nil, List.nil_append, hrest, hf]
  rfl

/-! ## Whole texts -/

theorem decode_of_reads (h : Reads f v a) (hv : v.isExact = true) (hd : v.depth ≤ maxDepth) :
    decode f v.render = .ok a := by
  rw [decode, document_render hv]
  simp only [h ⟨maxDepth, false⟩ hd, ↓reduceIte]

end JobConsole.Json
