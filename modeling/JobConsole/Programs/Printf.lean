import JobConsole.Programs.Basic
import JobConsole.Text.Escape
import JobConsole.Text.Layout
import JobConsole.Text.Shielded

/-! # Printf

Prints a format, in which each directive takes the next argument. While arguments are left the format is
used again. What cannot be read as a number is told and counts as zero, or as what could be read.
-/

namespace JobConsole.Programs.Printf

open JobConsole.Host

/-- What printing has come to. -/
structure State where
  output : List Char
  args : List String
  status : Nat
  /-- Whether nothing more is printed. -/
  isOver : Bool

abbrev Printing := StateT State Act

structure Setup where
  invocation : Invocation
  isUnicode : Bool

namespace Setup

def named (s : Setup) (t : String) : String := Text.Shielded.named s.isUnicode t

def warn (s : Setup) (message : String) : Printing Unit := StateT.lift (s.invocation.complain message)

/-- Tells of a fault in an argument. -/
def blame (s : Setup) (message : String) : Printing Unit := do
  s.warn message
  modify fun st => { st with status := 1 }

/-- Ends because of a fault. -/
def fail (s : Setup) (message : String) : Printing Unit := do
  s.warn message
  modify fun st => { st with status := 1, isOver := true }

end Setup

def emit (cs : List Char) : Printing Unit := modify fun s => { s with output := cs.reverse ++ s.output }

def nextArg : Printing (Option String) := do
  let s ← get
  match s.args with
  | [] => return none
  | a :: r =>
    set { s with args := r }
    return some a

/-! ## Escapes -/

/-- Octets that write a character. Where texts are not UTF-8 there is only its number. -/
def characterOctets (isUnicode : Bool) (letter : Char) (n : Nat) : List Char :=
  if n < 0x80 || (isUnicode && n < 0x110000) then (Text.Octets.encode (String.ofList [Char.ofNat n])).toList
  else
    let digits := (Text.Floating.hexText n).toUpper
    let width := if letter = 'u' || n < 0x10000 then 4 else 8
    '\\' :: (if width = 4 then 'u' else 'U') ::
      (Text.Floating.zeros (width - digits.length) ++ digits).toList

/-- Whether a number is kept free of characters. -/
def isSurrogate (n : Nat) : Bool := 0xd800 ≤ n && n ≤ 0xdfff

/-- Prints the escape behind a backslash and gives back what is left. -/
def escape (s : Setup) (inArgument : Bool) (cs : List Char) : Printing (List Char) := do
  match cs with
  | [] =>
    emit ['\\']
    return []
  | 'c' :: r =>
    modify fun st => { st with isOver := true }
    return r
  | '"' :: r =>
    emit ['"']
    return r
  | 'x' :: r =>
    let (n, count, rest) := Text.Escape.digits 16 2 r
    if count = 0 then s.fail "missing hexadecimal number in escape" else emit [Text.Escape.octet n]
    return rest
  | c :: r =>
    if c = 'u' || c = 'U' then
      let width := if c = 'u' then 4 else 8
      let (n, count, rest) := Text.Escape.digits 16 width r
      if count < width then s.fail "missing hexadecimal number in escape"
      else if isSurrogate n then
        s.fail ("invalid universal character name \\" ++ String.ofList (c :: r.take width))
      else emit (characterOctets s.isUnicode c n)
      return rest
    else
      match Text.Escape.basic? (if inArgument then Text.Escape.skipZero cs else cs) with
      | some (x, rest) =>
        emit [x]
        return rest
      | none =>
        emit ['\\', c]
        return r

/-- Prints an argument with its escapes. The number bounds how many characters are looked at. -/
def printEscaped (s : Setup) : Nat → List Char → Printing Unit
  | 0, _ => return ()
  | _ + 1, [] => return ()
  | n + 1, c :: r => do
    if (← get).isOver then return ()
    else if c = '\\' then
      let rest ← escape s true r
      printEscaped s n rest
    else
      emit [c]
      printEscaped s n r

/-! ## Numbers -/

/-- Checks what is left of an argument behind its number. -/
def check (s : Setup) (arg : String) (isOut : Bool) (isRead : Bool) (rest : List Char) :
    Printing Unit := do
  if isOut then s.blame (s.named arg ++ ": Numerical result out of range")
  else if !rest.isEmpty then
    if isRead then s.blame (s.named arg ++ ": value not completely converted")
    else s.blame (s.named arg ++ ": expected a numeric value")

/-- The first character behind a quotation mark as a number. -/
def quoted? (s : Setup) (arg : String) : Option (Nat × List Char) :=
  match arg.toList with
  | q :: c :: r =>
    if q = '"' || q = '\'' then
      let front := if s.isUnicode then Text.Shielded.wide? (c :: r) else none
      match front with
      | some cs =>
        let text := Text.Octets.decode (String.ofList cs)
        some ((text.toList.headD c).toNat, (c :: r).drop cs.length)
      | none => some (c.toNat, r)
    else none
  | _ => none

/-- The value of an argument that begins with a quotation mark. -/
def quotedValue (s : Setup) (n : Nat) (rest : List Char) : Printing Nat := do
  if !rest.isEmpty then
    s.warn ("warning: " ++ String.ofList rest ++
      ": character(s) following character constant have been ignored")
  return n

def integerOf (s : Setup) (isSigned : Bool) : Option String → Printing Int
  | none => return 0
  | some arg => do
    match quoted? s arg with
    | some (n, rest) => return ((← quotedValue s n rest : Nat) : Int)
    | none =>
      match Text.Integer.read? none arg.toList with
      | none =>
        check s arg false false arg.toList
        return 0
      | some (n, rest) =>
        let high : Int := if isSigned then Text.Integer.greatest else (Nat.pow 2 64 : Nat) - 1
        let low : Int := if isSigned then Text.Integer.least else -high
        check s arg (n < low || high < n) true rest
        return if isSigned then max low (min n high) else min n high

def floatingOf (s : Setup) : Option String → Printing Text.Floating
  | none => return .finite false 0 0
  | some arg => do
    match quoted? s arg with
    | some (n, rest) => return (Text.Floating.ofFraction .extended false (← quotedValue s n rest) 1).1
    | none =>
      match Text.Floating.read? .extended arg.toList with
      | none =>
        check s arg false false arg.toList
        return .finite false 0 0
      | some (x, isOut, rest) =>
        check s arg isOut true rest
        return x

/-- A number of 64 bits that may be meant without a sign. -/
def unsigned (n : Int) : Nat :=
  if n < -((Nat.pow 2 64 : Nat) - 1 : Int) then Nat.pow 2 64 - 1 else (n % (Nat.pow 2 64 : Nat)).toNat

/-! ## Directives -/

/-- Reads the flags of a directive. -/
def readFlags (l : Text.Layout) : List Char → Text.Layout × List Char
  | [] => (l, [])
  | c :: r =>
    match l.flag? c with
    | some l' => readFlags l' r
    | none => if c = '\'' then readFlags l r else (l, c :: r)

/-- A width or precision, which may be taken from an argument. -/
def readCount (s : Setup) (cs : List Char) : Printing (Option Int × List Char) := do
  match cs with
  | '*' :: r => return (some (← integerOf s true (← nextArg)), r)
  | _ =>
    let ds := cs.takeWhile Char.isDigit
    if ds.isEmpty then return (none, cs)
    else return (some (Text.Integer.valueOf 10 ds), cs.drop ds.length)

def isConversion (c : Char) : Bool := "diouxXcsbqaAeEfFgG".toList.contains c

/-- Prints one directive for the next argument. -/
def convert (s : Setup) (l : Text.Layout) (c : Char) : Printing Unit := do
  let arg ← nextArg
  let text := arg.getD ""
  match c with
  | 's' => emit (l.text text).toList
  | 'c' => emit (l.pad (if arg.isSome then String.ofList ((text.toList ++ ['\x00']).take 1) else
      String.ofList ['\x00'])).toList
  | 'b' => printEscaped s text.length text.toList
  | 'q' => emit (Text.Shielded.forShell s.isUnicode false (fun _ => false) text).toList
  | 'd' | 'i' => emit (l.integer (← integerOf s true arg)).toList
  | 'o' | 'u' | 'x' | 'X' => emit (l.natural c (unsigned (← integerOf s false arg))).toList
  | _ => emit (l.floating .extended c (← floatingOf s arg)).toList

/-- Whether a layout means something for a conversion. -/
def suits (l : Text.Layout) (hasPrecision : Bool) (c : Char) : Bool :=
  match c with
  | 'b' | 'q' => l = .plain && !hasPrecision
  | 'c' => !l.isAlternative && !l.isZeroed && !hasPrecision
  | 's' => !l.isAlternative && !l.isZeroed
  | 'd' | 'i' | 'u' => !l.isAlternative
  | _ => true

/-- Prints the directive behind a percent sign and gives back what is left. -/
def directive (s : Setup) (cs : List Char) : Printing (List Char) := do
  match cs with
  | '%' :: r =>
    emit ['%']
    return r
  | _ =>
    let (l, rest) := readFlags .plain cs
    let (width, rest) ← readCount s rest
    let l := match width with
      | some n => l.setWidth n
      | none => l
    let (l, rest, hasPrecision) ← match rest with
      | '.' :: r => do
        let (p, r) ← readCount s r
        pure (l.setPrecision (p.getD 0), r, true)
      | r => pure (l, r, false)
    let rest := rest.dropWhile fun c => "hjlLqtz".toList.contains c && c ≠ 'q'
    match rest with
    | c :: r =>
      if isConversion c && suits l hasPrecision c then
        convert s l c
        return r
      else
        let read := cs.take (cs.length - r.length)
        s.fail ("%" ++ String.ofList read ++ ": invalid conversion specification")
        return []
    | [] =>
      s.fail ("%" ++ String.ofList cs ++ ": invalid conversion specification")
      return []

/-- Prints the format once. The number bounds how many characters are looked at. -/
def once (s : Setup) : Nat → List Char → Printing Unit
  | 0, _ => return ()
  | _ + 1, [] => return ()
  | n + 1, c :: r => do
    if (← get).isOver then return ()
    else if c = '\\' then
      let rest ← escape s false r
      once s n rest
    else if c = '%' then
      let rest ← directive s r
      once s n rest
    else
      emit [c]
      once s n r

/-- Prints the format until no argument is left, as long as it takes any. -/
def repeated (s : Setup) (format : String) : Nat → Printing Unit
  | 0 => return ()
  | n + 1 => do
    let before ← get
    once s format.length format.toList
    let after ← get
    if after.isOver || after.args.isEmpty then return ()
    else if after.args.length = before.args.length then
      s.warn ("warning: ignoring excess arguments, starting with " ++
        s.named (after.args.headD ""))
    else repeated s format n

def run (i : Invocation) : Act Nat := do
  let s : Setup := ⟨i, i.isUnicode⟩
  match if i.args.head? = some "--" then i.args.drop 1 else i.args with
  | [] => i.misuse "missing operand"
  | format :: args =>
    let (_, st) ← (repeated s format (args.length + 1)).run ⟨[], args, 0, false⟩
    i.conclude (String.ofList st.output.reverse) st.status

end JobConsole.Programs.Printf
