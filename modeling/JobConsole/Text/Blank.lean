/-! # Blank text

White space as the Unicode property White_Space lists it. Zero width spaces and byte order marks
are not in it. A text is blank when nothing is left after trimming it at both ends.
-/

namespace JobConsole.Text

def isBlank (c : Char) : Bool :=
  let n := c.toNat
  (9 ≤ n && n ≤ 13) || n == 0x20 || n == 0x85 || n == 0xA0 || n == 0x1680 ||
    (0x2000 ≤ n && n ≤ 0x200A) || n == 0x2028 || n == 0x2029 || n == 0x202F || n == 0x205F ||
    n == 0x3000

/-- Drops blank characters at the front. -/
def trimStart (s : List Char) : List Char :=
  s.dropWhile isBlank

/-- Drops blank characters at both ends. -/
def trimChars (s : List Char) : List Char :=
  (trimStart (trimStart s).reverse).reverse

def trim (s : String) : String :=
  String.ofList (trimChars s.toList)

def isAllBlank (s : String) : Bool :=
  s.toList.all isBlank

/-- A decimal digit is not blank. -/
theorem isBlank_of_digit {c : Char} (hlow : 48 ≤ c.toNat) (hhigh : c.toNat ≤ 57) :
    isBlank c = false := by
  simp only [isBlank, Bool.or_eq_false_iff, Bool.and_eq_false_iff, decide_eq_false_iff_not,
    beq_eq_false_iff_ne]
  omega

theorem dropWhile_eq_nil_iff {s : List Char} :
    s.dropWhile isBlank = [] ↔ s.all isBlank = true := by
  induction s with
  | nil => simp
  | cons c r ih => by_cases h : isBlank c <;> simp [List.dropWhile, h, ih]

theorem head_not_blank_of_trimStart {s r : List Char} {c : Char} (h : trimStart s = c :: r) :
    isBlank c = false := by
  induction s with
  | nil => simp [trimStart] at h
  | cons d t ih =>
    by_cases hd : isBlank d
    · exact ih (by simpa [trimStart, List.dropWhile, hd] using h)
    · simp only [trimStart, List.dropWhile, hd] at h
      injection h with h₁ _
      simpa [h₁] using hd

theorem trimChars_eq_nil_iff {s : List Char} : trimChars s = [] ↔ s.all isBlank = true := by
  constructor
  · intro h
    have hall : (trimStart s).all isBlank = true := by
      simpa using dropWhile_eq_nil_iff.mp (List.reverse_eq_nil_iff.mp h)
    cases hs : trimStart s with
    | nil => exact dropWhile_eq_nil_iff.mp hs
    | cons c r =>
      have hc := head_not_blank_of_trimStart hs
      simp [hs, hc] at hall
  · intro h
    simp [trimChars, trimStart, dropWhile_eq_nil_iff.mpr h]

theorem trimStart_cons {c : Char} (h : isBlank c = false) (rest : List Char) :
    trimStart (c :: rest) = c :: rest := by
  rw [trimStart, List.dropWhile_cons, h, if_neg Bool.false_ne_true]

theorem trimChars_of_forall {s : List Char} (h : ∀ c ∈ s, isBlank c = false) : trimChars s = s := by
  have hstart {r : List Char} (hr : ∀ c ∈ r, isBlank c = false) : trimStart r = r := by
    cases r with
    | nil => rfl
    | cons c r => exact trimStart_cons (hr c List.mem_cons_self) r
  have hback : ∀ c ∈ s.reverse, isBlank c = false := fun c hc => h c (List.mem_reverse.mp hc)
  rw [trimChars, hstart h, hstart hback, List.reverse_reverse]

theorem trim_eq_empty_iff {s : String} : trim s = "" ↔ isAllBlank s = true := by
  rw [isAllBlank, ← trimChars_eq_nil_iff, trim]
  constructor
  · intro h
    have := congrArg String.toList h
    simpa using this
  · intro h
    simp [h]

end JobConsole.Text
