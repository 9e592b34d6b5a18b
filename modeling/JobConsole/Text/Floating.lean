import JobConsole.Text.Integer

/-! # Floating numbers in texts

A floating number is a mantissa times a power of two. Its shape bounds the bits of the mantissa and the
power. Reading rounds to the nearest number of a shape, and writing rounds to the nearest decimal; a tie
goes to the even neighbour. Both are exact.
-/

namespace JobConsole.Text

structure FloatShape where
  /-- How many bits a mantissa has. -/
  bits : Nat
  /-- The bounds of the power of two. -/
  least : Int
  greatest : Int
  /-- How many bits the first hexadecimal digit has. -/
  leading : Nat

namespace FloatShape

def double : FloatShape := ⟨53, -1074, 971, 1⟩

def extended : FloatShape := ⟨64, -16445, 16320, 4⟩

end FloatShape

inductive Floating where
  /-- The mantissa times a power of two. -/
  | finite (isNegative : Bool) (mantissa : Nat) (power : Int)
  | infinite (isNegative : Bool)
  | undefined (isNegative : Bool)
  deriving DecidableEq, Repr

namespace Floating

/-- The quotient rounded to the nearest, and a tie to the even neighbour. -/
def roundQuotient (n d : Nat) : Nat :=
  let q := n / d
  let r := n % d
  if 2 * r > d || (2 * r = d && q % 2 = 1) then q + 1 else q

/-- A fraction of which numerator and denominator have been scaled so that it is counted in units of
a power of a base. -/
def inUnits (base n d : Nat) (power : Int) : Nat × Nat :=
  if 0 ≤ power then (n, d * Nat.pow base power.toNat) else (n * Nat.pow base (-power).toNat, d)

/-- The number of a shape nearest to a fraction, and whether it lies outside the range of the shape. -/
def ofFraction (s : FloatShape) (isNegative : Bool) (n d : Nat) : Floating × Bool :=
  if n = 0 then (finite isNegative 0 0, false)
  else
    let guess : Int := (n.log2 : Int) - d.log2 - s.bits
    let floorAt (q : Int) : Nat :=
      let (a, b) := inUnits 2 n d q
      a / b
    let q := max s.least (if floorAt guess < Nat.pow 2 s.bits then guess else guess + 1)
    let (a, b) := inUnits 2 n d q
    let m := roundQuotient a b
    let (m, q) := if m = Nat.pow 2 s.bits then (m / 2, q + 1) else (m, q)
    if s.greatest < q then (infinite isNegative, true)
    else (finite isNegative m q, m < Nat.pow 2 (s.bits - 1) && a % b ≠ 0)

/-! ## Reading -/

/-- Digits with at most one point among them: the number without the point, how many digits there
are, how many of them stand behind the point, and what is left. -/
def readDigits (base : Nat) (cs : List Char) : Nat × Nat × Nat × List Char :=
  let isDigit := Integer.isDigitOf base
  let whole := cs.takeWhile isDigit
  let rest := cs.drop whole.length
  match rest with
  | '.' :: r =>
    let part := r.takeWhile isDigit
    if whole.isEmpty && part.isEmpty then (0, 0, 0, cs)
    else
      (Integer.valueOf base (whole ++ part), whole.length + part.length, part.length,
        r.drop part.length)
  | _ => (Integer.valueOf base whole, whole.length, 0, rest)

/-- An exponent behind its letter, or zero if there is none. -/
def readExponent (letter : Char) (cs : List Char) : Int × List Char :=
  match cs with
  | c :: r =>
    if c.toLower = letter then
      let (isNegative, digits) := match r with
        | '-' :: t => (true, t)
        | '+' :: t => (false, t)
        | t => (false, t)
      match Integer.natural? (some 10) digits with
      | some (n, rest) => (if isNegative then -(n : Int) else n, rest)
      | none => (0, cs)
    else (0, cs)
  | [] => (0, [])

/-- A bound on exponents, beyond which every number is out of range. -/
def exponentBound : Int := 20000

/-- The number of digits times a power of a base, where each digit is so many powers. -/
def ofDigits (s : FloatShape) (isNegative : Bool) (base value digits : Nat) (power : Int)
    (perDigit : Int) : Floating × Bool :=
  if value = 0 then (finite isNegative 0 0, false)
  else if power + digits * perDigit < -exponentBound then (finite isNegative 0 s.least, true)
  else if exponentBound < power then (infinite isNegative, true)
  else
    let (n, d) := inUnits base value 1 (-power)
    ofFraction s isNegative n d

/-- Whether a text begins with letters, be they small or capital. -/
def startsWith (word : String) (cs : List Char) : Bool :=
  (cs.take word.length).map Char.toLower = word.toList

/-- A number without its sign. -/
def readUnsigned? (s : FloatShape) (isNegative : Bool) (cs : List Char) :
    Option (Floating × Bool × List Char) :=
  if startsWith "infinity" cs then some (infinite isNegative, false, cs.drop 8)
  else if startsWith "inf" cs then some (infinite isNegative, false, cs.drop 3)
  else if startsWith "nan" cs then
    let rest := cs.drop 3
    match rest with
    | '(' :: r =>
      match r.dropWhile fun c => c.isAlphanum || c = '_' with
      | ')' :: t => some (undefined isNegative, false, t)
      | _ => some (undefined isNegative, false, rest)
    | _ => some (undefined isNegative, false, rest)
  else
    let hexadecimal := if startsWith "0x" cs then readDigits 16 (cs.drop 2) else (0, 0, 0, cs)
    let (value, digits, behind, rest) := hexadecimal
    if 0 < digits then
      let (e, rest) := readExponent 'p' rest
      let (x, isOut) := ofDigits s isNegative 2 value digits (e - 4 * behind) 4
      some (x, isOut, rest)
    else
      let (value, digits, behind, rest) := readDigits 10 cs
      if digits = 0 then none
      else
        let (e, rest) := readExponent 'e' rest
        let (x, isOut) := ofDigits s isNegative 10 value digits (e - behind) 1
        some (x, isOut, rest)

/-- The number at the front of a text, whether it was out of range, and what is left. -/
def read? (s : FloatShape) (cs : List Char) : Option (Floating × Bool × List Char) :=
  match cs.dropWhile Integer.isBlank with
  | '-' :: r => readUnsigned? s true r
  | '+' :: r => readUnsigned? s false r
  | r => readUnsigned? s false r

/-! ## Writing -/

/-- A number as a fraction. -/
def fraction (m : Nat) (power : Int) : Nat × Nat := inUnits 2 m 1 (-power)

def digitText (n : Nat) : String := String.ofList (Nat.toDigits 10 n)

def zeros (n : Nat) : String := String.ofList (List.replicate n '0')

/-- Digits, of which so many stand behind the point. -/
def pointed (alwaysPoint : Bool) (digits : String) (behind : Nat) : String :=
  let digits := zeros (behind + 1 - digits.length) ++ digits
  let whole := String.ofList (digits.toList.take (digits.length - behind))
  let part := String.ofList (digits.toList.drop (digits.length - behind))
  if behind = 0 && !alwaysPoint then whole else whole ++ "." ++ part

/-- A fraction with so many places behind the point. -/
def fixedText (alwaysPoint : Bool) (places n d : Nat) : String :=
  pointed alwaysPoint (digitText (roundQuotient (n * Nat.pow 10 places) d)) places

/-- The power of ten of the first digit of a fraction. -/
def decimalPower (n d : Nat) : Int :=
  let guess : Int := ((digitText n).length : Int) - (digitText d).length
  let (a, b) := inUnits 10 n d guess
  if a < b then guess - 1 else guess

/-- The digits of a fraction, one in front of the point and so many behind it, and the power of ten. -/
def decimalDigits (places n d : Nat) : String × Int :=
  if n = 0 then (zeros (places + 1), 0)
  else
    let x := decimalPower n d
    let (a, b) := inUnits 10 n d (x - places)
    let m := roundQuotient a b
    if m = Nat.pow 10 (places + 1) then (digitText (m / 10), x + 1) else (digitText m, x)

/-- An exponent with its letter, its sign and at least so many digits. -/
def exponentText (letter : String) (least : Nat) (x : Int) : String :=
  let digits := digitText x.natAbs
  letter ++ (if x < 0 then "-" else "+") ++ zeros (least - digits.length) ++ digits

def scientificText (alwaysPoint : Bool) (places n d : Nat) : String :=
  let (digits, x) := decimalDigits places n d
  pointed alwaysPoint digits places ++ exponentText "e" 2 x

/-- A text with a point without the zeros at its end. -/
def trimZeros (s : String) : String :=
  if s.toList.contains '.' then
    let kept := s.toList.reverse.dropWhile (· = '0')
    String.ofList (match kept with
      | '.' :: r => r.reverse
      | r => r.reverse)
  else s

/-- The shorter of the two forms with so many digits that count. -/
def generalText (alternative : Bool) (digits n d : Nat) : String :=
  let count := max digits 1
  let (ds, x) := decimalDigits (count - 1) n d
  let trim (s : String) : String := if alternative then s else trimZeros s
  if -4 ≤ x && x < count then trim (fixedText alternative ((count : Int) - 1 - x).toNat n d)
  else trim (pointed alternative ds (count - 1)) ++ exponentText "e" 2 x

def hexText (n : Nat) : String := String.ofList (Nat.toDigits 16 n)

/-- A number in hexadecimal digits with a power of two. Without a number of places there are as many
as are needed. -/
def hexadecimalText (s : FloatShape) (alwaysPoint : Bool) (places? : Option Nat) (m : Nat)
    (power : Int) : String :=
  let places := (s.bits - s.leading) / 4
  if m = 0 then "0x" ++ pointed alwaysPoint (zeros ((places?.getD 0) + 1)) (places?.getD 0) ++ "p+0"
  else
    let x := power + (s.bits - s.leading : Nat)
    match places? with
    | some p =>
      if p < places then
        let r := roundQuotient m (Nat.pow 16 (places - p))
        let (r, x) := if r = Nat.pow 16 (p + 1) then (r / 16, x + 4) else (r, x)
        "0x" ++ pointed alwaysPoint (hexText r) p ++ exponentText "p" 1 x
      else
        "0x" ++ pointed alwaysPoint (hexText m ++ zeros (p - places)) p ++ exponentText "p" 1 x
    | none =>
      let digits := zeros (places + 1 - (hexText m).length) ++ hexText m
      let s := trimZeros (pointed true digits places)
      "0x" ++ s ++ (if alwaysPoint && !s.toList.contains '.' then "." else "") ++
        exponentText "p" 1 x

end Floating

end JobConsole.Text
