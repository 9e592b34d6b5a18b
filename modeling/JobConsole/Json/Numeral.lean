import JobConsole.Json.Value

/-! # Numerals

A numeral is a number as a document spells it. One without fraction and exponent that fits 64 bits
is that integer. Any other is a double: the leading digits that fit an unsigned 64 bit word make
the significand, which is then scaled by a power of ten in one floating point operation. A numeral
too large for a double has no value.
-/

namespace JobConsole.Json

structure Numeral where
  negative : Bool
  whole : List Nat
  /-- Empty when no point is written. -/
  fraction : List Nat
  /-- The sign, true when negative, and the digits of a written exponent. -/
  exponent : Option (Bool × List Nat)
  deriving DecidableEq, Repr

namespace Numeral

def wordLimit : Nat := Nat.pow 2 64

def ofDigits (ds : List Nat) : Nat :=
  ds.foldl (fun n d => 10 * n + d) 0

/-- The value of the longest run of leading digits that fits a word, and how many digits remain. -/
def leading (n : Nat) : List Nat → Nat × Nat
  | [] => (n, 0)
  | d :: r => if 10 * n + d < wordLimit then leading (10 * n + d) r else (n, r.length + 1)

/-- The significand and its power of ten. Whole digits beyond the word count as zeros and fraction
digits beyond it are dropped. -/
def scaled (n : Numeral) : Nat × Int :=
  let (w, extra) := leading 0 n.whole
  let (s, dropped) := leading w n.fraction
  (s, (extra : Int) - ((n.fraction.length - dropped : Nat) : Int))

def power10 (n : Nat) : Float := Float.ofScientific 1 false n

/-- Divides by ten to the power `d`, in steps that a double can hold. -/
def divide (f : Float) (d : Nat) : Float :=
  if d ≤ 308 then f / power10 d
  else if f == 0 then f
  else divide (f / power10 308) (d - 308)
termination_by d

/-- Multiplies by a power of ten; none when the result leaves the range of doubles. -/
def scale (f : Float) (e : Int) : Option Float :=
  if e < 0 then some (divide f e.natAbs)
  else if e ≤ 308 then
    let g := f * power10 e.toNat
    if g.isInf then none else some g
  else if f == 0 then some f
  else none

def exponentValue (n : Numeral) : Int :=
  match n.exponent with
  | none => 0
  | some (true, ds) => -(ofDigits ds : Int)
  | some (false, ds) => ofDigits ds

def double? (n : Numeral) : Option Number :=
  let (s, e) := n.scaled
  (scale s.toUInt64.toFloat (e + n.exponentValue)).map fun f =>
    .double (if n.negative then -f else f).toBits

/-- A negative zero is a double, since no integer is it. -/
def value? (n : Numeral) : Option Number :=
  let w := ofDigits n.whole
  if n.fraction = [] ∧ n.exponent = none ∧ w < wordLimit then
    if !n.negative then some (.int w)
    else if 0 < w ∧ w ≤ Nat.pow 2 63 then some (.int (-(w : Int)))
    else n.double?
  else n.double?

end Numeral

end JobConsole.Json
