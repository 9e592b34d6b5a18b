import JobConsole.Text.Utf8
import Mathlib.Data.List.Basic
import Mathlib.Data.String.Basic

/-! # Order of octets

The octets that write texts are in the order of the texts: of two characters the one with the smaller
number has the smaller octets, whatever comes behind.
-/

namespace JobConsole.Text.Utf8

variable {c d : Char} {x y : UInt8} {l l' : List UInt8} {s t : String} {v w n : Nat}

/-- The one list is smaller than the other, whatever comes behind them. -/
def Below (l l' : List UInt8) : Prop := ∀ xs ys, l ++ xs < l' ++ ys

theorem below_of_lt (h : x.toNat < y.toNat) (l l' : List UInt8) : Below (x :: l) (y :: l') :=
  fun _ _ => List.cons_lt_cons_iff.mpr (.inl (UInt8.lt_iff_toNat_lt.mpr h))

theorem Below.cons (h : Below l l') (x : UInt8) : Below (x :: l) (x :: l') :=
  fun xs ys => List.cons_lt_cons_iff.mpr (.inr ⟨rfl, h xs ys⟩)

def tailLength (v : Nat) : Nat :=
  if v ≤ 0x7f then 0 else if v ≤ 0x7ff then 1 else if v ≤ 0xffff then 2 else 3

def leadOctet : Nat → Nat → UInt8
  | 0, v => .ofNat v
  | 1, v => .ofNat (v / 64 ^ 1 % 32 + 192)
  | 2, v => .ofNat (v / 64 ^ 2 % 16 + 224)
  | _, v => .ofNat (v / 64 ^ 3 % 8 + 240)

def tailOctets : Nat → Nat → List UInt8
  | 0, _ => []
  | n + 1, v => .ofNat (v / 64 ^ n % 64 + 128) :: tailOctets n v

theorem utf8EncodeChar_eq (c : Char) : String.utf8EncodeChar c =
    leadOctet (tailLength c.val.toNat) c.val.toNat ::
      tailOctets (tailLength c.val.toNat) c.val.toNat := by
  simp only [String.utf8EncodeChar, tailLength]
  split_ifs <;> simp [leadOctet, tailOctets]

theorem below_tailOctets (h : v < w) (he : v / 64 ^ n = w / 64 ^ n) :
    Below (tailOctets n v) (tailOctets n w) := by
  induction n with
  | zero =>
    simp only [pow_zero, Nat.div_one] at he
    exact absurd he h.ne
  | succ n ih =>
    rw [pow_succ, ← Nat.div_div_eq_div_mul, ← Nat.div_div_eq_div_mul] at he
    rcases Nat.lt_or_eq_of_le (Nat.div_le_div_right (c := 64 ^ n) h.le) with hlt | heq
    · refine below_of_lt ?_ _ _
      simp only [UInt8.toNat_ofNat']
      omega
    · rw [tailOctets, tailOctets, heq]
      exact (ih heq).cons _

theorem leadOctet_lt (h : tailLength v < tailLength w) :
    (leadOctet (tailLength v) v).toNat < (leadOctet (tailLength w) w).toNat := by
  unfold tailLength at h ⊢
  split_ifs at h ⊢ <;> simp only [leadOctet, UInt8.toNat_ofNat'] <;> omega

theorem leadOctet_lt_of_div_lt (hn : tailLength v = n) (hn' : tailLength w = n) (hw : w < 0x110000)
    (h : v / 64 ^ n < w / 64 ^ n) : (leadOctet n v).toNat < (leadOctet n w).toNat := by
  subst hn
  unfold tailLength at hn' h ⊢
  split_ifs at hn' h ⊢ <;> simp only [leadOctet, UInt8.toNat_ofNat'] <;> omega

theorem leadOctet_congr (hn : tailLength v = n) (h : v / 64 ^ n = w / 64 ^ n) :
    leadOctet n v = leadOctet n w := by
  subst hn
  unfold tailLength at h ⊢
  split_ifs at h ⊢
  · simp only [pow_zero, Nat.div_one] at h
    rw [h]
  all_goals simp only [leadOctet, h]

theorem below_utf8EncodeChar (h : c < d) :
    Below (String.utf8EncodeChar c) (String.utf8EncodeChar d) := by
  have hlt : c.val.toNat < d.val.toNat := UInt32.lt_iff_toNat_lt.mp h
  have hmax : d.val.toNat < 0x110000 := by
    rcases d.valid with h | ⟨-, h⟩ <;> omega
  rw [utf8EncodeChar_eq, utf8EncodeChar_eq]
  generalize c.val.toNat = v at hlt
  generalize d.val.toNat = w at hlt hmax
  have hle : tailLength v ≤ tailLength w := by
    unfold tailLength
    split_ifs <;> omega
  rcases Nat.lt_or_eq_of_le hle with hn | hn
  · exact below_of_lt (leadOctet_lt hn) _ _
  rw [← hn]
  rcases Nat.lt_or_eq_of_le (Nat.div_le_div_right (c := 64 ^ tailLength v) hlt.le) with hd | hd
  · exact below_of_lt (leadOctet_lt_of_div_lt rfl hn.symm hmax hd) _ _
  · rw [leadOctet_congr rfl hd]
    exact (below_tailOctets hlt hd).cons _

theorem flatMap_lt_flatMap {cs ds : List Char} (h : cs < ds) :
    cs.flatMap String.utf8EncodeChar < ds.flatMap String.utf8EncodeChar := by
  induction cs generalizing ds with
  | nil =>
    cases ds with
    | nil => exact absurd h (List.lt_irrefl _)
    | cons d ds =>
      rw [List.flatMap_nil, List.flatMap_cons, utf8EncodeChar_eq, List.cons_append]
      exact List.nil_lt_cons _ _
  | cons c cs ih =>
    cases ds with
    | nil => exact absurd h (List.not_lt_nil _)
    | cons d ds =>
      rw [List.flatMap_cons, List.flatMap_cons]
      rcases List.cons_lt_cons_iff.mp h with hd | ⟨rfl, hds⟩
      · exact below_utf8EncodeChar hd _ _
      · exact List.append_left_lt (ih hds)

theorem encode_lt_of_lt (h : s < t) : encode s < encode t :=
  flatMap_lt_flatMap (String.lt_iff_toList_lt.mp h)

end JobConsole.Text.Utf8
