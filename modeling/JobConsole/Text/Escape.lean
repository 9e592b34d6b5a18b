import JobConsole.Text.Integer

/-! # Escapes

What stands behind a backslash: a letter for a control character, or the number of an octet in a few
digits.
-/

namespace JobConsole.Text.Escape

/-- The character that a letter behind a backslash stands for. -/
def letter? : Char → Option Char
  | 'a' => some '\x07'
  | 'b' => some '\x08'
  | 'e' => some '\x1b'
  | 'f' => some '\x0c'
  | 'n' => some '\x0a'
  | 'r' => some '\x0d'
  | 't' => some '\x09'
  | 'v' => some '\x0b'
  | '\\' => some '\\'
  | _ => none

def octet (n : Nat) : Char := Char.ofNat (n % 256)

/-- Reads at most so many digits of a base, and tells how many there were. -/
def digits (base most : Nat) (cs : List Char) : Nat × Nat × List Char :=
  let ds := (cs.take most).takeWhile (Integer.isDigitOf base)
  (Integer.valueOf base ds, ds.length, cs.drop ds.length)

def isOctal (c : Char) : Bool := Integer.isDigitOf 8 c

/-- The character of an octal number or a letter, and what is left. -/
def basic? : List Char → Option (Char × List Char)
  | [] => none
  | c :: r =>
    if isOctal c then
      let (n, _, rest) := digits 8 3 (c :: r)
      some (octet n, rest)
    else (letter? c).map (·, r)

/-- An octal number may have a zero in front of its three digits. -/
def skipZero : List Char → List Char
  | '0' :: c :: r => if isOctal c then c :: r else '0' :: c :: r
  | r => r

end JobConsole.Text.Escape
