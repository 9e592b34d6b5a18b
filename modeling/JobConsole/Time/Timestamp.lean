import JobConsole.Text.Blank
import JobConsole.Time.Date

/-! # Timestamps

Points in time in UTC, to the nanosecond. A second 60 is accepted in every minute and kept as
nanoseconds beyond the last second. The text is the internet date and time format with the offset
`Z` and as many fraction digits of 0, 3, 6 or 9 as lose nothing. Reading is more permissive: blanks
may stand between the fields, leading zeros may be missing, any offset below a day is taken, and
years beyond four digits carry a sign.
-/

namespace JobConsole

structure Timestamp where
  date : Date
  hour : Nat
  minute : Nat
  second : Nat
  /-- A billion or more within a leap second. -/
  nano : Nat
  deriving DecidableEq

namespace Timestamp

def minYear : Int := -262143

def maxYear : Int := 262142

/-- Orders timestamps in time. -/
def rank (t : Timestamp) : Int :=
  (((t.date.rank * 24 + t.hour) * 60 + t.minute) * 60 + t.second) * 2000000000 + t.nano

instance : Inhabited Timestamp := ⟨⟨Date.epoch, 0, 0, 0, 0⟩⟩

/-! ## Printing -/

/-- The last `w` decimal digits of `n`. -/
def padded : Nat → Nat → List Char
  | 0, _ => []
  | w + 1, n => padded w (n / 10) ++ [Char.ofNat (48 + n % 10)]

def yearChars (y : Int) : List Char :=
  if 0 ≤ y ∧ y ≤ 9999 then padded 4 y.toNat
  else
    let ds := Nat.toDigits 10 y.natAbs
    (if y < 0 then '-' else '+') :: (List.replicate (4 - ds.length) '0' ++ ds)

def fractionChars (n : Nat) : List Char :=
  if n = 0 then []
  else if n % 1000000 = 0 then '.' :: padded 3 (n / 1000000)
  else if n % 1000 = 0 then '.' :: padded 6 (n / 1000)
  else '.' :: padded 9 n

def chars (t : Timestamp) : List Char :=
  let (s, n) := if t.nano < 1000000000 then (t.second, t.nano)
    else (t.second + 1, t.nano - 1000000000)
  yearChars t.date.year ++ '-' :: padded 2 t.date.month ++ '-' :: padded 2 t.date.day ++
    'T' :: padded 2 t.hour ++ ':' :: padded 2 t.minute ++ ':' :: padded 2 s ++
    fractionChars n ++ ['Z']

def toText (t : Timestamp) : String := String.ofList t.chars

/-! ## Reading -/

def digit? (c : Char) : Option Nat :=
  if '0' ≤ c ∧ c ≤ '9' then some (c.toNat - 48) else none

/-- The value of at most `w` digits at the front, how many there are, and the rest. -/
def takeDigits : Nat → Nat → Nat → List Char → Nat × Nat × List Char
  | 0, n, k, s => (n, k, s)
  | _ + 1, n, k, [] => (n, k, [])
  | w + 1, n, k, c :: r =>
    match digit? c with
    | some d => takeDigits w (10 * n + d) (k + 1) r
    | none => (n, k, c :: r)

def number? (w : Nat) (s : List Char) : Option (Nat × List Char) :=
  match takeDigits w 0 0 s with
  | (_, 0, _) => none
  | (n, _, r) => some (n, r)

/-- A number of at most `w` digits, after blanks, between `low` and `high`. -/
def field? (w low high : Nat) (s : List Char) : Option (Nat × List Char) :=
  match number? w (Text.trimStart s) with
  | some (n, r) => if low ≤ n ∧ n ≤ high then some (n, r) else none
  | none => none

def year? (s : List Char) : Option (Int × List Char) :=
  match Text.trimStart s with
  | '-' :: r => (number? r.length r).map fun x => (-(x.1 : Int), x.2)
  | '+' :: r => (number? r.length r).map fun x => ((x.1 : Int), x.2)
  | r => (number? 4 r).map fun x => ((x.1 : Int), x.2)

/-- The character `c`, after blanks. -/
def mark? (c : Char) (s : List Char) : Option (List Char) :=
  match Text.trimStart s with
  | d :: r => if c = d then some r else none
  | [] => none

/-- Nanoseconds after a point, if there is one. Digits beyond the ninth are dropped. -/
def fraction? : List Char → Option (Nat × List Char)
  | '.' :: r =>
    match takeDigits 9 0 0 r with
    | (_, 0, _) => none
    | (n, k, r') => some (n * Nat.pow 10 (9 - k), r'.dropWhile fun c => (digit? c).isSome)
  | s => some (0, s)

def twoDigits? : List Char → Option (Nat × List Char)
  | c :: d :: r =>
    match digit? c, digit? d with
    | some m, some n => some (10 * m + n, r)
    | _, _ => none
  | _ => none

/-- Minutes east of UTC. -/
def offset? (s : List Char) : Option (Int × List Char) :=
  let signed (sign : Int) (r : List Char) : Option (Int × List Char) :=
    match twoDigits? r with
    | none => none
    | some (h, r) =>
      match twoDigits? (r.dropWhile fun c => c = ':' || Text.isBlank c) with
      | none => none
      | some (m, r) => if m < 60 then some (sign * (60 * h + m), r) else none
  match s with
  | u :: t :: c :: r =>
    if (u = 'U' ∨ u = 'u') ∧ (t = 'T' ∨ t = 't') ∧ (c = 'C' ∨ c = 'c') then some (0, r)
    else if u = 'Z' ∨ u = 'z' then some (0, t :: c :: r)
    else if u = '+' then signed 1 (t :: c :: r)
    else if u = '-' ∨ u = '−' then signed (-1) (t :: c :: r)
    else none
  | z :: r => if z = 'Z' ∨ z = 'z' then some (0, r) else none
  | [] => none

/-- The point in time that shows as `t` on clocks `m` minutes east of UTC. -/
def fromOffset (t : Timestamp) (m : Int) : Timestamp :=
  let n : Int := (t.hour * 60 + t.minute : Nat) - m
  let moved (d : Date) (n : Nat) : Timestamp :=
    { t with date := d, hour := n / 60, minute := n % 60 }
  if n < 0 then moved t.date.previous (n + 1440).toNat
  else if n < 1440 then moved t.date n.toNat
  else moved t.date.next (n - 1440).toNat

def inRange (t : Timestamp) : Bool := minYear ≤ t.date.year && t.date.year ≤ maxYear

def ofChars? (s : List Char) : Option Timestamp := do
  let (y, s) ← year? s
  let s ← mark? '-' s
  let (mo, s) ← field? 2 1 12 s
  let s ← mark? '-' s
  let (d, s) ← field? 2 1 31 s
  let s ← match s with
    | c :: r => if c = 'T' ∨ c = 't' ∨ c = ' ' then some r else none
    | [] => none
  let (h, s) ← field? 2 0 23 s
  let s ← mark? ':' s
  let (mi, s) ← field? 2 0 59 s
  let s ← mark? ':' s
  let (sec, s) ← field? 2 0 60 s
  let (n, s) ← fraction? s
  let (off, s) ← offset? (Text.trimStart s)
  if Text.trimStart s ≠ [] ∨ off.natAbs ≥ 1440 then none
  else
    let date ← Date.ofFields? y mo d
    let shown : Timestamp :=
      if sec = 60 then ⟨date, h, mi, 59, n + 1000000000⟩ else ⟨date, h, mi, sec, n⟩
    let t := shown.fromOffset off
    if shown.inRange && t.inRange then some t else none

def ofText? (s : String) : Option Timestamp := ofChars? s.toList

end Timestamp

end JobConsole
