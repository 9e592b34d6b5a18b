/-! # Decimal text of doubles

A finite double is `m * 2 ^ q`. Its text is the decimal with the fewest digits among those that
round to it, the nearest one where there are several. The digits are found on exact naturals: the
coarsest power of ten with a multiple inside the rounding interval gives them. Positional notation
is used for magnitudes from `10 ^ -5` up to but excluding `10 ^ 16`.
-/

namespace JobConsole.Decimal

/-- The magnitude of a finite double, in units of a power of two, with its rounding interval. -/
structure Interval where
  low : Nat
  value : Nat
  high : Nat
  /-- Whether the two ends round to the value too. -/
  closed : Bool
  /-- The unit is two to this power. -/
  unit : Int

def fraction (bits : UInt64) : Nat := bits.toNat % Nat.pow 2 52

def exponent (bits : UInt64) : Nat := bits.toNat / Nat.pow 2 52 % Nat.pow 2 11

def isNegative (bits : UInt64) : Bool := bits.toNat / Nat.pow 2 63 == 1

/-- A quarter of the last place is the unit, so both ends of the interval are whole. -/
def interval (bits : UInt64) : Interval :=
  let f := fraction bits
  let e := exponent bits
  let m := if e = 0 then f else Nat.pow 2 52 + f
  let q : Int := (if e = 0 then 1 else (e : Int)) - 1075
  let below := if f = 0 ∧ 1 < e then 1 else 2
  ⟨4 * m - below, 4 * m, 4 * m + 2, m % 2 = 0, q - 2⟩

def pow2 (n : Int) : Nat := Nat.pow 2 n.toNat

def pow10 (n : Int) : Nat := Nat.pow 10 n.toNat

def Interval.contains (i : Interval) (p q k : Nat) : Bool :=
  if i.closed then i.low * p ≤ k * q && k * q ≤ i.high * p
  else i.low * p < k * q && k * q < i.high * p

/-- The multiple of ten to the power `e` that stands for the interval, if one lies in it. -/
def Interval.multiple? (i : Interval) (e : Int) : Option Nat :=
  let p := pow2 i.unit * pow10 (-e)
  let q := pow2 (-i.unit) * pow10 e
  let k := i.value * p / q
  let low := i.contains p q k
  let high := i.contains p q (k + 1)
  if low && high then
    let a := i.value * p - k * q
    let b := (k + 1) * q - i.value * p
    if a < b || (a == b && k % 2 == 0) then some k else some (k + 1)
  else if low then some k
  else if high then some (k + 1)
  else none

/-- Tries ever finer powers of ten; no double needs one below `10 ^ -345`. -/
def Interval.digits (i : Interval) : Nat → Nat × Int
  | 0 => (0, 0)
  | n + 1 =>
    let e : Int := (n : Int) - 345
    match i.multiple? e with
    | some k => (k, e)
    | none => i.digits n

def digitChars (n : Nat) : List Char := Nat.toDigits 10 n

/-- Lays out the digits of `k`, which are multiplied by ten to the power `e`. -/
def layout (k : Nat) (e : Int) : List Char :=
  let ds := digitChars k
  let point : Int := ds.length + e
  if 0 ≤ e ∧ point ≤ 16 then ds ++ List.replicate e.toNat '0' ++ ['.', '0']
  else if 0 < point ∧ point ≤ 16 then ds.take point.toNat ++ '.' :: ds.drop point.toNat
  else if -5 < point ∧ point ≤ 0 then '0' :: '.' :: (List.replicate (-point).toNat '0' ++ ds)
  else
    let power := point - 1
    let mark := 'e' :: (if power < 0 then ['-'] else []) ++ digitChars power.natAbs
    match ds with
    | [d] => d :: mark
    | d :: rest => d :: '.' :: rest ++ mark
    | [] => mark

def chars (bits : UInt64) : List Char :=
  let sign := if isNegative bits then ['-'] else []
  let i := interval bits
  if i.value = 0 then sign ++ ['0', '.', '0']
  else
    let (k, e) := i.digits 660
    sign ++ layout k e

end JobConsole.Decimal
