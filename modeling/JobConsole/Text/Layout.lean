import JobConsole.Text.Floating

/-! # Layouts

How a value is laid out: the least width, the precision, and what stands in the places that are left. A
conversion says what the value is taken for.
-/

namespace JobConsole.Text

structure Layout where
  isLeft : Bool
  isPlus : Bool
  isSpaced : Bool
  /-- The other form: the base is shown, a point always, zeros at the end. -/
  isAlternative : Bool
  isZeroed : Bool
  width : Nat
  precision : Option Nat
  deriving DecidableEq, Repr

namespace Layout

def plain : Layout := ⟨false, false, false, false, false, 0, none⟩

def flag? (l : Layout) : Char → Option Layout
  | '-' => some { l with isLeft := true }
  | '+' => some { l with isPlus := true }
  | ' ' => some { l with isSpaced := true }
  | '#' => some { l with isAlternative := true }
  | '0' => some { l with isZeroed := true }
  | _ => none

/-- A negative width stands for a width on the left. -/
def setWidth (l : Layout) (n : Int) : Layout :=
  if n < 0 then { l with isLeft := true, width := n.natAbs } else { l with width := n.natAbs }

/-- A negative precision stands for none. -/
def setPrecision (l : Layout) (n : Int) : Layout :=
  { l with precision := if n < 0 then none else some n.toNat }

/-- Takes a text up to the width, behind or in front of blanks. -/
def pad (l : Layout) (s : String) : String :=
  let blanks := String.ofList (List.replicate (l.width - s.length) ' ')
  if l.isLeft then s ++ blanks else blanks ++ s

/-- A text of which at most as much is taken as the precision says. -/
def text (l : Layout) (s : String) : String :=
  l.pad (match l.precision with
    | some p => String.ofList (s.toList.take p)
    | none => s)

def sign (l : Layout) (isNegative : Bool) : String :=
  if isNegative then "-" else if l.isPlus then "+" else if l.isSpaced then " " else ""

/-- Puts zeros between what stands in front of a number and its digits. -/
def fill (l : Layout) (front digits : String) : String :=
  if l.isZeroed && !l.isLeft then
    front ++ Floating.zeros (l.width - front.length - digits.length) ++ digits
  else l.pad (front ++ digits)

/-- Digits of which there are at least as many as the precision says. -/
def digits (l : Layout) (front s : String) : String :=
  match l.precision with
  | some p =>
    let s := if p = 0 && s = "0" then "" else s
    l.pad (front ++ Floating.zeros (p - s.length) ++ s)
  | none => l.fill front s

def integer (l : Layout) (n : Int) : String :=
  l.digits (l.sign (n < 0)) (Floating.digitText n.natAbs)

/-- A number of 64 bits without a sign. -/
def natural (l : Layout) (conversion : Char) (n : Nat) : String :=
  match conversion with
  | 'o' =>
    let s := String.ofList (Nat.toDigits 8 n)
    let least := if n = 0 then 1 else s.length + 1
    if !l.isAlternative then l.digits "" s
    else
      match l.precision with
      | some p => { l with precision := some (max p least) }.digits "" s
      | none => l.fill "" (Floating.zeros (least - s.length) ++ s)
  | 'x' => l.digits (if l.isAlternative && n ≠ 0 then "0x" else "") (Floating.hexText n)
  | 'X' => l.digits (if l.isAlternative && n ≠ 0 then "0X" else "") (Floating.hexText n).toUpper
  | _ => l.digits "" (Floating.digitText n)

/-- A floating number as its conversion says. -/
def floating (l : Layout) (s : FloatShape) (conversion : Char) (x : Floating) : String :=
  let raise (t : String) : String := if conversion.isUpper then t.toUpper else t
  match x with
  | .infinite isNegative => l.pad (l.sign isNegative ++ raise "inf")
  | .undefined isNegative => l.pad (l.sign isNegative ++ raise "nan")
  | .finite isNegative m power =>
    let (n, d) := Floating.fraction m power
    let places := l.precision.getD 6
    let front := l.sign isNegative
    match conversion.toLower with
    | 'f' => l.fill front (Floating.fixedText l.isAlternative places n d)
    | 'e' => l.fill front (raise (Floating.scientificText l.isAlternative places n d))
    | 'g' => l.fill front (raise (Floating.generalText l.isAlternative places n d))
    | _ =>
      let t := raise (Floating.hexadecimalText s l.isAlternative l.precision m power)
      l.fill (front ++ String.ofList (t.toList.take 2)) (String.ofList (t.toList.drop 2))

end Layout

end JobConsole.Text
