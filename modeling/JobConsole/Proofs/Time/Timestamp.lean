import JobConsole.Time.Timestamp
import Mathlib.Algebra.Order.Ring.Nat

/-! # Reading printed timestamps

A timestamp of the years 0 to 9999 is read back from its text to the nanosecond, unless it lies in a
leap second. Every field of the text is printed in full width, so it ends where its reader stops.
-/

namespace JobConsole

theorem daysInMonth_le (y : Int) (m : Nat) : daysInMonth y m ≤ 31 := by
  unfold daysInMonth
  split
  · split <;> decide
  · split <;> decide

theorem Date.ofFields?_self (d : Date) : ofFields? d.year d.month d.day = some d := by
  rw [ofFields?, dif_pos d.month_ok, dif_pos d.day_ok]

namespace Timestamp

variable {w : Nat} {c : Char}

/-! ## Digits -/

theorem digit?_ofNat {d : Nat} (h : d < 10) : digit? (Char.ofNat (48 + d)) = some d := by
  have hall : ∀ d : Fin 10, digit? (Char.ofNat (48 + d)) = some d.val := by decide
  exact hall ⟨d, h⟩

theorem not_blank_of_digit {d : Nat} (h : digit? c = some d) : Text.isBlank c = false := by
  obtain ⟨⟨hlow, hhigh⟩, -⟩ := Option.ite_none_right_eq_some.mp h
  exact Text.isBlank_of_digit hlow hhigh

theorem padded_eq_cons (w n : Nat) :
    ∃ c cs d, padded (w + 1) n = c :: cs ∧ digit? c = some d := by
  induction w generalizing n with
  | zero => exact ⟨_, [], _, rfl, digit?_ofNat (Nat.mod_lt n (by decide))⟩
  | succ w ih =>
    obtain ⟨c, cs, d, hcs, hd⟩ := ih (n / 10)
    rw [padded, hcs]
    exact ⟨c, cs ++ [Char.ofNat (48 + n % 10)], d, rfl, hd⟩

/-- All digits of a padded number are taken, and then up to `v` more. -/
theorem takeDigits_padded {n : Nat} (h : n < 10 ^ w) (v a k : Nat) (rest : List Char) :
    takeDigits (w + v) a k (padded w n ++ rest) = takeDigits v (a * 10 ^ w + n) (k + w) rest := by
  induction w generalizing n v rest with
  | zero =>
    have hn : n = 0 := by omega
    rw [hn, Nat.zero_add, Nat.pow_zero, Nat.mul_one]
    rfl
  | succ w ih =>
    have hfront : n / 10 < 10 ^ w := by omega
    have hvalue : 10 * (a * 10 ^ w + n / 10) + n % 10 = a * 10 ^ (w + 1) + n := by
      rw [Nat.pow_succ, ← Nat.mul_assoc]
      omega
    rw [padded, List.append_assoc, List.singleton_append, Nat.add_right_comm, Nat.add_assoc,
      ih hfront, takeDigits, digit?_ofNat (Nat.mod_lt n (by decide))]
    simp only [hvalue, Nat.add_assoc]

theorem number?_padded {n : Nat} (h : n < 10 ^ (w + 1)) (rest : List Char) :
    number? (w + 1) (padded (w + 1) n ++ rest) = some (n, rest) := by
  have htake := takeDigits_padded h 0 0 0 rest
  rw [Nat.zero_mul, Nat.zero_add, Nat.zero_add] at htake
  rw [number?, htake]
  rfl

/-! ## Fields -/

theorem trimStart_padded (w n : Nat) (rest : List Char) :
    Text.trimStart (padded (w + 1) n ++ rest) = padded (w + 1) n ++ rest := by
  obtain ⟨c, cs, d, hcs, hd⟩ := padded_eq_cons w n
  rw [hcs, List.cons_append, Text.trimStart_cons (not_blank_of_digit hd)]

theorem field?_padded {n low high : Nat} (h : n < 10 ^ (w + 1)) (hlow : low ≤ n) (hhigh : n ≤ high)
    (rest : List Char) :
    field? (w + 1) low high (padded (w + 1) n ++ rest) = some (n, rest) := by
  rw [field?, trimStart_padded, number?_padded h]
  exact if_pos ⟨hlow, hhigh⟩

theorem mark?_cons (h : Text.isBlank c = false) (rest : List Char) :
    mark? c (c :: rest) = some rest := by
  rw [mark?, Text.trimStart_cons h]
  exact if_pos rfl

theorem year?_yearChars {y : Int} (h : 0 ≤ y ∧ y ≤ 9999) (rest : List Char) :
    year? (yearChars y ++ rest) = some (y, rest) := by
  have hy : ((y.toNat : Nat) : Int) = y := Int.toNat_of_nonneg h.1
  have hnumber := number?_padded (w := 3) (n := y.toNat) (by omega) rest
  rw [yearChars, if_pos h, year?, trimStart_padded]
  obtain ⟨c, cs, d, hcs, hd⟩ := padded_eq_cons 3 y.toNat
  rw [hcs, List.cons_append] at hnumber ⊢
  split
  · next heq => cases heq; cases hd
  · next heq => cases heq; cases hd
  · rw [hnumber, Option.map_some, hy]

theorem takeDigits_end (v a k : Nat) : takeDigits v a k ['Z'] = (a, k, ['Z']) := by
  cases v <;> rfl

theorem fraction?_padded {n v : Nat} (h : n < 10 ^ (w + 1)) (hv : w + 1 + v = 9) :
    fraction? ('.' :: padded (w + 1) n ++ ['Z']) = some (n * 10 ^ v, ['Z']) := by
  have htake := takeDigits_padded h v 0 0 ['Z']
  rw [hv, Nat.zero_mul, Nat.zero_add, Nat.zero_add, takeDigits_end] at htake
  have hrest : 9 - (w + 1) = v := by omega
  rw [List.cons_append, fraction?, htake]
  simp only [hrest]
  rfl

theorem fraction?_fractionChars {n : Nat} (h : n < 1000000000) :
    fraction? (fractionChars n ++ ['Z']) = some (n, ['Z']) := by
  unfold fractionChars
  split
  · next hn => rw [hn]; rfl
  split
  · rw [fraction?_padded (w := 2) (v := 6) (by omega) rfl]
    congr 2
    omega
  split
  · rw [fraction?_padded (w := 5) (v := 3) (by omega) rfl]
    congr 2
    omega
  · rw [fraction?_padded (w := 8) (v := 0) (by omega) rfl, Nat.pow_zero, Nat.mul_one]

/-! ## Whole timestamps -/

/-- In the years that are printed with four digits, at a time that clocks show outside leap
seconds. -/
structure IsRegular (t : Timestamp) : Prop where
  year : 0 ≤ t.date.year ∧ t.date.year ≤ 9999
  hour : t.hour < 24
  minute : t.minute < 60
  second : t.second < 60
  nano : t.nano < 1000000000

theorem fromOffset_zero {t : Timestamp} (h : t.IsRegular) : t.fromOffset 0 = t := by
  obtain ⟨-, hhour, hminute, -, -⟩ := h
  have hlow : ¬ ((t.hour * 60 + t.minute : Nat) : Int) < 0 := by omega
  have hhigh : ((t.hour * 60 + t.minute : Nat) : Int) < 1440 := by omega
  have hdiv : (t.hour * 60 + t.minute) / 60 = t.hour := by omega
  have hmod : (t.hour * 60 + t.minute) % 60 = t.minute := by omega
  simp only [fromOffset, Int.sub_zero, if_neg hlow, if_pos hhigh, Int.toNat_natCast, hdiv, hmod]

theorem inRange_of_isRegular {t : Timestamp} (h : t.IsRegular) : t.inRange = true := by
  have hyear := h.year
  have hlow : minYear ≤ t.date.year := Int.le_trans (by decide) hyear.1
  have hhigh : t.date.year ≤ maxYear := Int.le_trans hyear.2 (by decide)
  rw [inRange, decide_eq_true hlow, decide_eq_true hhigh]
  rfl

theorem ofText?_toText {t : Timestamp} (h : t.IsRegular) : ofText? t.toText = some t := by
  have hmonth := t.date.month_ok
  have hday := t.date.day_ok
  have hdays := daysInMonth_le t.date.year t.date.month
  have hhour := h.hour
  have hminute := h.minute
  have hsecond := h.second
  have hleap : t.second ≠ 60 := by omega
  rw [ofText?, toText, String.toList_ofList, chars, if_pos h.nano]
  simp only [List.append_assoc, List.cons_append]
  refine Option.bind_eq_some_iff.mpr ⟨_, year?_yearChars h.year _, ?_⟩
  refine Option.bind_eq_some_iff.mpr ⟨_, mark?_cons rfl _, ?_⟩
  refine Option.bind_eq_some_iff.mpr ⟨_, field?_padded (by omega) hmonth.1 hmonth.2 _, ?_⟩
  refine Option.bind_eq_some_iff.mpr ⟨_, mark?_cons rfl _, ?_⟩
  refine Option.bind_eq_some_iff.mpr ⟨_, field?_padded (by omega) hday.1 (by omega) _, ?_⟩
  -- The separator between the date and the time is compared on the spot.
  refine Option.bind_eq_some_iff.mpr ⟨_, field?_padded (by omega) (Nat.zero_le _) (by omega) _, ?_⟩
  refine Option.bind_eq_some_iff.mpr ⟨_, mark?_cons rfl _, ?_⟩
  refine Option.bind_eq_some_iff.mpr ⟨_, field?_padded (by omega) (Nat.zero_le _) (by omega) _, ?_⟩
  refine Option.bind_eq_some_iff.mpr ⟨_, mark?_cons rfl _, ?_⟩
  refine Option.bind_eq_some_iff.mpr ⟨_, field?_padded (by omega) (Nat.zero_le _) (by omega) _, ?_⟩
  refine Option.bind_eq_some_iff.mpr ⟨_, fraction?_fractionChars h.nano, ?_⟩
  refine Option.bind_eq_some_iff.mpr ⟨(0, []), rfl, ?_⟩
  refine Option.bind_eq_some_iff.mpr ⟨_, Date.ofFields?_self t.date, ?_⟩
  simp only [if_neg hleap, fromOffset_zero h, inRange_of_isRegular h, Bool.and_self, if_true]

end Timestamp

end JobConsole
