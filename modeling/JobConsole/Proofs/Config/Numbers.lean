import JobConsole.Config.Basic
import Mathlib.Data.List.Basic

/-! # Numbers among the settings

A number is read exactly if it is one digit or more, with one plus sign in front at most, and its value
is below the limit. So what the variables of an environment give fits the word that it is kept in, and
every number of the word can be given.
-/

namespace JobConsole

variable {limit n m : Nat} {ds s : List Char}

/-! ## Reading digits -/

theorem le_ofDigitChars (ds : List Char) (n : Nat) : n ≤ Nat.ofDigitChars 10 ds n := by
  induction ds generalizing n with
  | nil => exact Nat.le_refl n
  | cons c ds ih =>
    rw [Nat.ofDigitChars_cons]
    have := ih (10 * n + (c.toNat - '0'.toNat))
    omega

/-- On the way to a value there are no greater ones, so testing all of them is testing the value. -/
theorem readDigits_eq_ok_iff (hn : n < limit) :
    readDigits limit n ds = .ok m ↔
      (∀ c ∈ ds, c.isDigit = true) ∧ Nat.ofDigitChars 10 ds n = m ∧ m < limit := by
  induction ds generalizing n with
  | nil =>
    constructor
    · rintro ⟨⟩
      exact ⟨List.forall_mem_nil _, rfl, hn⟩
    · rintro ⟨-, rfl, -⟩
      rfl
  | cons c ds ih =>
    have hzero : '0'.toNat = 48 := rfl
    rw [readDigits, List.forall_mem_cons, Nat.ofDigitChars_cons, hzero]
    by_cases hc : c.isDigit = true
    · rw [if_pos hc, and_iff_right hc]
      by_cases hlt : 10 * n + (c.toNat - 48) < limit
      · simp only [if_pos hlt]
        exact ih hlt
      · simp only [if_neg hlt]
        have := le_ofDigitChars ds (10 * n + (c.toNat - 48))
        constructor
        · rintro ⟨⟩
        · rintro ⟨-, rfl, hm⟩
          omega
    · simp [hc]

/-- The text of a number: one digit or more, with one plus sign in front at most. -/
def Denotes (s : List Char) (n : Nat) : Prop :=
  ∃ ds, (s = ds ∨ s = '+' :: ds) ∧ ds ≠ [] ∧ (∀ c ∈ ds, c.isDigit = true) ∧
    Nat.ofDigitChars 10 ds 0 = n

theorem readNumber_eq_ok_iff (h : 0 < limit) :
    readNumber limit s = .ok n ↔ Denotes s n ∧ n < limit := by
  have hplus : ¬ '+'.isDigit = true := by decide
  constructor
  · intro hr
    unfold readNumber at hr
    split at hr
    · cases hr
    · cases hr
    next r hne =>
      obtain ⟨hd, hv, hlt⟩ := (readDigits_eq_ok_iff h).mp hr
      exact ⟨⟨r, .inr rfl, fun he => hne (he ▸ rfl), hd, hv⟩, hlt⟩
    next hne _ _ =>
      obtain ⟨hd, hv, hlt⟩ := (readDigits_eq_ok_iff h).mp hr
      exact ⟨⟨s, .inl rfl, hne, hd, hv⟩, hlt⟩
  · rintro ⟨⟨ds, rfl | rfl, hne, hd, hv⟩, hlt⟩
    · have hr := (readDigits_eq_ok_iff h).mpr ⟨hd, hv, hlt⟩
      unfold readNumber
      split
      · exact absurd rfl hne
      · exact absurd (hd _ List.mem_cons_self) hplus
      · exact absurd (hd _ List.mem_cons_self) hplus
      · exact hr
    · cases ds with
      | nil => exact absurd rfl hne
      | cons c ds => exact (readDigits_eq_ok_iff h).mpr ⟨hd, hv, hlt⟩

theorem toList_toString (n : Nat) : (toString n).toList = Nat.toDigits 10 n := Nat.toList_repr

theorem isDigit_of_mem_toString {c : Char} (h : c ∈ (toString n).toList) : c.isDigit = true :=
  Nat.isDigit_of_mem_toDigits (by decide) (by decide) (toList_toString n ▸ h)

theorem denotes_toString (n : Nat) : Denotes (toString n).toList n := by
  refine ⟨_, .inl rfl, ?_, fun c hc => isDigit_of_mem_toString hc, ?_⟩
  · rw [toList_toString]
    exact Nat.toDigits_ne_nil
  · rw [toList_toString]
    exact Nat.ofDigitChars_toDigits (by decide) (by decide)

theorem trimChars_toString (n : Nat) :
    Text.trimChars (toString n).toList = (toString n).toList := by
  refine Text.trimChars_of_forall fun c hc => ?_
  obtain ⟨hlow, hhigh⟩ := Char.isDigit_iff_toNat.mp (isDigit_of_mem_toString hc)
  exact Text.isBlank_of_digit hlow hhigh

/-! ## Variables of an environment -/

section Variables

variable {env : Environment} {key : String} {bits fallback : Nat}

theorem serverNumber_lt (h : serverNumber env key bits fallback = .ok n)
    (hf : fallback < Nat.pow 2 bits) : n < Nat.pow 2 bits := by
  unfold serverNumber at h
  split at h
  · cases h
    exact hf
  · split at h
    next hr =>
      cases h
      exact ((readNumber_eq_ok_iff (Nat.two_pow_pos bits)).mp hr).2
    · cases h

theorem jobsNumber_lt (h : jobsNumber env key fallback = .ok n) (hf : fallback < Nat.pow 2 64) :
    n < Nat.pow 2 64 := by
  unfold jobsNumber at h
  split at h
  · cases h
    exact hf
  · split at h
    next hr =>
      cases h
      exact ((readNumber_eq_ok_iff (Nat.two_pow_pos 64)).mp hr).2
    · cases h

theorem serverNumber_insert (h : n < Nat.pow 2 bits) :
    serverNumber (env.insert key (toString n)) key bits fallback = .ok n := by
  have hr : readNumber (Nat.pow 2 bits) (toString n).toList = .ok n :=
    (readNumber_eq_ok_iff (Nat.two_pow_pos bits)).mpr ⟨denotes_toString n, h⟩
  simp only [serverNumber, Dict.get?_insert, ↓reduceIte, hr]

theorem jobsNumber_insert (h : n < Nat.pow 2 64) :
    jobsNumber (env.insert key (toString n)) key fallback = .ok n := by
  have hr : readNumber (Nat.pow 2 64) (toString n).toList = .ok n :=
    (readNumber_eq_ok_iff (Nat.two_pow_pos 64)).mpr ⟨denotes_toString n, h⟩
  simp only [jobsNumber, Dict.get?_insert, ↓reduceIte, trimChars_toString, hr]

variable {k v : String}

theorem serverNumber_insert_of_ne (h : key ≠ k) :
    serverNumber (env.insert k v) key bits fallback = serverNumber env key bits fallback := by
  rw [serverNumber, Dict.get?_insert, if_neg h]
  rfl

theorem jobsNumber_insert_of_ne (h : key ≠ k) :
    jobsNumber (env.insert k v) key fallback = jobsNumber env key fallback := by
  rw [jobsNumber, Dict.get?_insert, if_neg h]
  rfl

end Variables

end JobConsole
