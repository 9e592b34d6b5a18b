import JobConsole.Json.Printer
import Mathlib.Data.List.Basic

/-! # Printed texts

The text of a value holds no control character, whatever the strings inside it hold. So it is one
line.
-/

namespace JobConsole.Json

/-- No character comes before the space. -/
def Visible (cs : List Char) : Prop := ∀ c ∈ cs, 32 ≤ c.toNat

variable {cs ds : List Char} {c : Char}

theorem visible_of_all (h : cs.all (32 ≤ ·.toNat) = true) : Visible cs := by
  simpa [Visible] using h

theorem visible_nil : Visible [] := List.forall_mem_nil _

@[simp] theorem visible_cons_iff : Visible (c :: cs) ↔ 32 ≤ c.toNat ∧ Visible cs :=
  List.forall_mem_cons

@[simp] theorem visible_append_iff : Visible (cs ++ ds) ↔ Visible cs ∧ Visible ds :=
  List.forall_mem_append

theorem Visible.sublist (h : Visible ds) (hs : cs.Sublist ds) : Visible cs := fun c hc =>
  h c (hs.subset hc)

theorem Visible.replicate (h : 32 ≤ c.toNat) (n : Nat) : Visible (List.replicate n c) := by
  intro d hd
  rwa [List.eq_of_mem_replicate hd]

/-! ## Strings -/

theorem toNat_hexDigit {n : Nat} (h : n < 16) :
    (hexDigit n).toNat = if n < 10 then 48 + n else 87 + n := by
  have hall : ∀ n < 16, (hexDigit n).toNat = if n < 10 then 48 + n else 87 + n := by decide
  exact hall n h

theorem le_toNat_hexDigit {n : Nat} (h : n < 16) : 32 ≤ (hexDigit n).toNat := by
  rw [toNat_hexDigit h]
  split <;> omega

theorem visible_escapeChar (c : Char) : Visible (escapeChar c) := by
  unfold escapeChar
  split_ifs with _ _ _ _ _ _ _ h
  all_goals try exact visible_of_all rfl
  · have hhigh : c.toNat / 16 < 16 := by omega
    have hlow : c.toNat % 16 < 16 := Nat.mod_lt _ (by decide)
    simp [le_toNat_hexDigit hhigh, le_toNat_hexDigit hlow, visible_nil]
  · simpa [visible_nil] using h

theorem visible_quote (s : String) : Visible (quote s) := by
  have hbody : Visible (s.toList.flatMap escapeChar) := by
    intro c hc
    obtain ⟨d, -, hd⟩ := List.mem_flatMap.mp hc
    exact visible_escapeChar d c hd
  simp [quote, hbody, visible_nil]

/-! ## Numbers -/

theorem visible_of_digits (h : ∀ c ∈ cs, c.isDigit = true) : Visible cs := fun c hc => by
  have : 48 ≤ c.toNat := (Char.isDigit_iff_toNat.mp (h c hc)).1
  omega

theorem visible_toDigits (n : Nat) : Visible (Nat.toDigits 10 n) :=
  visible_of_digits fun _ hc => Nat.isDigit_of_mem_toDigits (by decide) (by decide) hc

theorem toList_toString_negSucc (m : Nat) :
    (toString (Int.negSucc m)).toList = '-' :: Nat.toDigits 10 (m + 1) := by
  have h : toString (Int.negSucc m) = "-" ++ (m + 1).repr := rfl
  rw [h, String.toList_append, Nat.toList_repr]
  rfl

theorem visible_int (n : Int) : Visible (toString n).toList := by
  cases n with
  | ofNat m => exact Nat.toList_repr ▸ visible_toDigits m
  | negSucc m =>
    rw [toList_toString_negSucc]
    exact visible_cons_iff.mpr ⟨by decide, visible_toDigits _⟩

theorem visible_mark (p : Int) :
    Visible ('e' :: (if p < 0 then ['-'] else []) ++ Decimal.digitChars p.natAbs) := by
  have hp : Visible (Decimal.digitChars p.natAbs) := visible_toDigits _
  split <;> simp [hp]

theorem visible_layout (k : Nat) (e : Int) : Visible (Decimal.layout k e) := by
  have hds : Visible (Decimal.digitChars k) := visible_toDigits k
  have hzeros (n : Nat) : Visible (List.replicate n '0') := .replicate (by decide) n
  have hmark := visible_mark ((Decimal.digitChars k).length + e - 1)
  simp only [Decimal.layout]
  generalize 'e' :: (if (Decimal.digitChars k).length + e - 1 < 0 then ['-'] else []) ++
    Decimal.digitChars ((Decimal.digitChars k).length + e - 1).natAbs = mark at hmark ⊢
  split_ifs
  · simp [hds, hzeros, visible_nil]
  · have hfront := hds.sublist (List.take_sublist ((Decimal.digitChars k).length + e).toNat _)
    have hback := hds.sublist (List.drop_sublist ((Decimal.digitChars k).length + e).toNat _)
    simp [hfront, hback]
  · simp [hds, hzeros]
  · split
    next d hd =>
      have hd := (visible_cons_iff.mp (hd ▸ hds)).1
      exact visible_cons_iff.mpr ⟨hd, hmark⟩
    next d rest _ hd =>
      obtain ⟨hd, hrest⟩ := visible_cons_iff.mp (hd ▸ hds)
      simp [hd, hrest, hmark]
    next => exact hmark

theorem visible_decimal (bits : UInt64) : Visible (Decimal.chars bits) := by
  have hsign : Visible (if Decimal.isNegative bits then ['-'] else []) := by
    split <;> simp [visible_nil]
  simp only [Decimal.chars]
  split_ifs <;> simp_all [visible_layout, visible_nil]

theorem visible_numberChars (n : Number) : Visible (numberChars n) := by
  cases n with
  | int n => exact visible_int n
  | double bits => exact visible_decimal bits

/-! ## Values -/

mutual

theorem visible_chars : ∀ v : Json, Visible (chars v)
  | .null | .bool true | .bool false | .array [] | .object [] => visible_of_all rfl
  | .number n => visible_numberChars n
  | .text s => visible_quote s
  | .array (v :: r) => by simp [chars, visible_chars v, visible_itemsTail r]
  | .object ((k, v) :: r) => by
    simp [chars, visible_quote k, visible_chars v, visible_membersTail r]

theorem visible_itemsTail : ∀ r : List Json, Visible (itemsTail r)
  | [] => visible_of_all rfl
  | v :: r => by simp [itemsTail, visible_chars v, visible_itemsTail r]

theorem visible_membersTail : ∀ r : List (String × Json), Visible (membersTail r)
  | [] => visible_of_all rfl
  | (k, v) :: r => by
    simp [membersTail, visible_quote k, visible_chars v, visible_membersTail r]

end

theorem visible_render (v : Json) : Visible v.render.toList := by
  rw [render, String.toList_ofList]
  exact visible_chars v

end JobConsole.Json
