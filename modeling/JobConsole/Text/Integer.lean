/-! # Integers in texts

An integer is written with blanks and a sign in front of its digits. Its base is given, or told by what
the digits begin with: `0x`, `0b` or `0`. What cannot belong to the number is what is left.
-/

namespace JobConsole.Text.Integer

def isBlank (c : Char) : Bool := c = ' ' || (9 ≤ c.toNat && c.toNat ≤ 13)

def digit? (c : Char) : Option Nat :=
  if '0' ≤ c ∧ c ≤ '9' then some (c.toNat - 48)
  else if 'a' ≤ c ∧ c ≤ 'z' then some (c.toNat - 87)
  else if 'A' ≤ c ∧ c ≤ 'Z' then some (c.toNat - 55)
  else none

def isDigitOf (base : Nat) (c : Char) : Bool := (digit? c).any (· < base)

/-- The number that digits of a base write. -/
def valueOf (base : Nat) (cs : List Char) : Nat :=
  cs.foldl (fun n c => base * n + (digit? c).getD 0) 0

/-- The base of a number, and the text from its digits on. -/
def baseOf : List Char → Nat × List Char
  | '0' :: x :: c :: r =>
    if (x = 'x' || x = 'X') && isDigitOf 16 c then (16, c :: r)
    else if (x = 'b' || x = 'B') && isDigitOf 2 c then (2, c :: r)
    else (8, '0' :: x :: c :: r)
  | '0' :: r => (8, '0' :: r)
  | r => (10, r)

/-- The natural number at the front of a text, and what is left. The base is found out where none is
given. -/
def natural? (base? : Option Nat) (cs : List Char) : Option (Nat × List Char) :=
  let (base, cs) := match base? with
    | some b => (b, cs)
    | none => baseOf cs
  let digits := cs.takeWhile (isDigitOf base)
  if digits.isEmpty then none else some (valueOf base digits, cs.drop digits.length)

/-- The integer at the front of a text, and what is left. -/
def read? (base? : Option Nat) (cs : List Char) : Option (Int × List Char) :=
  match cs.dropWhile isBlank with
  | '-' :: r => (natural? base? r).map fun (n, rest) => (-n, rest)
  | '+' :: r => (natural? base? r).map fun (n, rest) => ((n : Int), rest)
  | r => (natural? base? r).map fun (n, rest) => ((n : Int), rest)

def least : Int := -(Nat.pow 2 63 : Nat)

def greatest : Int := (Nat.pow 2 63 : Nat) - 1

/-- Whether a number fits into 64 bits. -/
def fits (n : Int) : Bool := least ≤ n && n ≤ greatest

/-- The number of 64 bits that is nearest. -/
def clamp (n : Int) : Int := max least (min greatest n)

end JobConsole.Text.Integer
