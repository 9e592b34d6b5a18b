/-! # Calendar dates

Dates of the proleptic Gregorian calendar. A date knows the day after it and the day before it, so
a change of time zone, which is always less than a day, needs no day count.
-/

namespace JobConsole

def isLeapYear (y : Int) : Bool :=
  y % 4 == 0 && (y % 100 != 0 || y % 400 == 0)

def daysInMonth (y : Int) (m : Nat) : Nat :=
  if m = 2 then (if isLeapYear y then 29 else 28)
  else if m = 4 ∨ m = 6 ∨ m = 9 ∨ m = 11 then 30
  else 31

theorem daysInMonth_pos (y : Int) (m : Nat) : 1 ≤ daysInMonth y m := by
  unfold daysInMonth; split
  · split <;> decide
  · split <;> decide

structure Date where
  year : Int
  month : Nat
  day : Nat
  month_ok : 1 ≤ month ∧ month ≤ 12
  day_ok : 1 ≤ day ∧ day ≤ daysInMonth year month
  deriving DecidableEq

namespace Date

/-- The date that counts of days begin at. -/
def epoch : Date :=
  ⟨1970, 1, 1, ⟨Nat.le_refl 1, Nat.le_add_left 1 11⟩, ⟨Nat.le_refl 1, daysInMonth_pos 1970 1⟩⟩

instance : Inhabited Date := ⟨epoch⟩

def ofFields? (y : Int) (m d : Nat) : Option Date :=
  if hm : 1 ≤ m ∧ m ≤ 12 then
    if hd : 1 ≤ d ∧ d ≤ daysInMonth y m then some ⟨y, m, d, hm, hd⟩ else none
  else none

def next (t : Date) : Date :=
  if hd : t.day < daysInMonth t.year t.month then
    ⟨t.year, t.month, t.day + 1, t.month_ok, ⟨by omega, hd⟩⟩
  else if hm : t.month < 12 then
    ⟨t.year, t.month + 1, 1, ⟨by omega, hm⟩, ⟨Nat.le_refl 1, daysInMonth_pos ..⟩⟩
  else
    ⟨t.year + 1, 1, 1, by decide, ⟨Nat.le_refl 1, daysInMonth_pos ..⟩⟩

def previous (t : Date) : Date :=
  if hd : 1 < t.day then
    ⟨t.year, t.month, t.day - 1, t.month_ok, ⟨by omega, by have := t.day_ok; omega⟩⟩
  else if hm : 1 < t.month then
    ⟨t.year, t.month - 1, daysInMonth t.year (t.month - 1),
      ⟨by omega, by have := t.month_ok; omega⟩, ⟨daysInMonth_pos .., Nat.le_refl _⟩⟩
  else
    ⟨t.year - 1, 12, daysInMonth (t.year - 1) 12, by decide,
      ⟨daysInMonth_pos .., Nat.le_refl _⟩⟩

/-- A whole number that orders dates as the calendar does. -/
def rank (t : Date) : Int := (t.year * 16 + t.month) * 32 + t.day

end Date

end JobConsole
