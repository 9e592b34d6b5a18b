import JobConsole.Text.Token
import JobConsole.Text.Utf8
import Mathlib.Data.List.Basic
import Mathlib.Data.String.Basic

/-! # Token characters in UTF-8

A token character is one octet, and decodes to itself.
-/

namespace JobConsole.Text

variable {c : Char} {cs : List Char} {s : String}

theorem toNat_lt_of_isAlphanum (h : c.isAlphanum = true) : c.toNat < 0x80 := by
  have hc : c.toNat = c.val.toNat := rfl
  have h : ((decide (65 ≤ c.val ∧ c.val ≤ 90) || (decide (97 ≤ c.val) && decide (c.val ≤ 122))) ||
    (decide (48 ≤ c.val) && decide (c.val ≤ 57))) = true := h
  simp only [Bool.or_eq_true, Bool.and_eq_true, decide_eq_true_eq, UInt32.le_iff_toNat_le,
    UInt32.reduceToNat] at h
  omega

theorem toNat_lt_of_isTokenChar (h : isTokenChar c = true) : c.toNat < 0x80 := by
  simp only [isTokenChar, Bool.or_eq_true, decide_eq_true_eq] at h
  rcases h with ((h | rfl) | rfl) | rfl
  · exact toNat_lt_of_isAlphanum h
  all_goals decide

theorem isTokenChar_of_isAlphanum (h : c.isAlphanum = true) : isTokenChar c = true := by
  simp [isTokenChar, h]

theorem isTokenChar_of_isDigit (h : c.isDigit = true) : isTokenChar c = true :=
  isTokenChar_of_isAlphanum (Bool.or_eq_true_iff.mpr (.inr h))

theorem isTokenChar_of_isLower (h : c.isLower = true) : isTokenChar c = true :=
  isTokenChar_of_isAlphanum (Bool.or_eq_true_iff.mpr (.inl (Bool.or_eq_true_iff.mpr (.inr h))))

theorem utf8Size_of_lt (h : c.toNat < 0x80) : c.utf8Size = 1 :=
  Char.utf8Size_eq_one_iff.mpr (UInt32.le_iff_toNat_le.mpr (Nat.le_of_lt_succ h))

theorem isTokenChar_of_mem (h : isToken s = true) (hc : c ∈ s.toList) : isTokenChar c = true :=
  List.all_eq_true.mp h c hc

theorem notMem_of_isToken (h : isToken s = true) (hc : isTokenChar c = false) : c ∉ s.toList :=
  fun hm => by simp [isTokenChar_of_mem h hm] at hc

theorem utf8Len_of_ascii (h : ∀ c ∈ cs, c.toNat < 0x80) : String.utf8Len cs = cs.length := by
  induction cs with
  | nil => rfl
  | cons c cs ih =>
    obtain ⟨hc, hcs⟩ := List.forall_mem_cons.mp h
    rw [String.utf8Len_cons, ih hcs, utf8Size_of_lt hc, List.length_cons]

theorem ascii_of_isToken (h : isToken s = true) : ∀ c ∈ s.toList, c.toNat < 0x80 := fun _ hc =>
  toNat_lt_of_isTokenChar (isTokenChar_of_mem h hc)

theorem utf8ByteSize_of_isToken (h : isToken s = true) : s.utf8ByteSize = s.toList.length := by
  have hs := utf8Len_of_ascii (ascii_of_isToken h)
  rwa [← String.utf8ByteSize_ofList, String.ofList_toList] at hs

namespace Utf8

def octetOf (c : Char) : UInt8 := c.val.toUInt8

theorem toNat_octetOf (h : c.toNat < 0x80) : (octetOf c).toNat = c.toNat := by
  have hv : c.val.toNat = c.toNat := rfl
  rw [octetOf, UInt32.toNat_toUInt8, hv]
  omega

theorem encode_of_ascii (h : ∀ c ∈ s.toList, c.toNat < 0x80) :
    encode s = s.toList.map octetOf := by
  rw [encode, List.map_eq_flatMap]
  exact List.flatMap_congr fun c hc => String.utf8EncodeChar_eq_singleton (utf8Size_of_lt (h c hc))

theorem run_of_ascii (h : ∀ c ∈ cs, c.toNat < 0x80) :
    run .ready (cs.map octetOf) = cs.map some := by
  induction cs with
  | nil => rfl
  | cons c cs ih =>
    obtain ⟨hc, hcs⟩ := List.forall_mem_cons.mp h
    have hn := toNat_octetOf hc
    simp only [List.map_cons, run, step, lead, hn, if_pos hc, Char.ofNat_toNat, ih hcs,
      List.singleton_append]

theorem decode?_encode_of_ascii (h : ∀ c ∈ s.toList, c.toNat < 0x80) :
    decode? (encode s) = some s := by
  have hid : s.toList.mapM (id ∘ some) = some s.toList :=
    (List.mapM_pure (m := Option) (f := id)).trans (congrArg some s.toList.map_id)
  rw [decode?, encode_of_ascii h, run_of_ascii h, List.mapM_map, hid, Option.map_some,
    String.ofList_toList]

end Utf8

end JobConsole.Text
