import JobConsole.Shell.Builtin.Basic
import JobConsole.Text.Escape
import JobConsole.Text.Layout

/-! # Printing

Echo prints its arguments with their escapes. Printf prints a format, in which each directive takes the
next argument; while arguments are left the format is used again.
-/

namespace JobConsole.Shell.Printing

/-- The character of an escape behind its backslash, and what is left. -/
def escape (cs : List Char) : Char × List Char := (Text.Escape.basic? cs).getD ('\\', cs)

/-- A text with its escapes, and whether one of them ends all output. The number bounds how many
characters are looked at. -/
def unescape : Nat → List Char → List Char × Bool
  | 0, _ => ([], false)
  | _ + 1, [] => ([], false)
  | _ + 1, '\\' :: 'c' :: _ => ([], true)
  | n + 1, '\\' :: r =>
    let (c, rest) := escape (Text.Escape.skipZero r)
    let (cs, ends) := unescape n rest
    (c :: cs, ends)
  | n + 1, c :: r =>
    let (cs, ends) := unescape n r
    (c :: cs, ends)

def unescapeText (s : String) : String × Bool :=
  let (cs, ends) := unescape s.length s.toList
  (String.ofList cs, ends)

/-! ## Echo -/

/-- Words with blanks between them, and whether output ends with one of them. -/
def joined : List String → String × Bool
  | [] => ("", false)
  | [w] => unescapeText w
  | w :: rest =>
    match unescapeText w with
    | (t, true) => (t, true)
    | (t, false) =>
      let (s, ends) := joined rest
      (t ++ " " ++ s, ends)

def echo : Builtin := fun _ u => do
  let isOpen := u.args.head? = some "-n"
  let (text, ends) := joined (if isOpen then u.args.drop 1 else u.args)
  Sh.print (if isOpen || ends then text else text ++ "\n")
  return 0

/-! ## Printf -/

structure State where
  args : List String
  status : Nat
  /-- Whether nothing more is printed. -/
  isOver : Bool

abbrev Printf := StateT State Sh

def emit (s : String) : Printf Unit := StateT.lift (Sh.print s)

def warn (message : String) : Printf Unit := do
  StateT.lift (Sh.warn message)
  modify fun s => { s with status := 1 }

def nextArg : Printf (Option String) := do
  let s ← get
  match s.args with
  | [] => return none
  | a :: r =>
    set { s with args := r }
    return some a

/-- Checks what is left of an argument behind its number. -/
def check (arg : String) (isOut : Bool) (rest : List Char) : Printf Unit := do
  if !rest.isEmpty then
    if rest.length = arg.length then warn (arg ++ ": expected numeric value")
    else warn (arg ++ ": not completely converted")
  else if isOut then warn (arg ++ ": Numerical result out of range")

/-- The number of the first character behind a quotation mark. -/
def quoted? (arg : String) : Option Nat :=
  match arg.toList with
  | '"' :: r | '\'' :: r => some ((r.head?.map Char.toNat).getD 0)
  | _ => none

def nextInteger (isSigned : Bool) : Printf Int := do
  match ← nextArg with
  | none => return 0
  | some arg =>
    match quoted? arg with
    | some n => return n
    | none =>
      match Text.Integer.read? none arg.toList with
      | none =>
        check arg false arg.toList
        return 0
      | some (n, rest) =>
        let high : Int := if isSigned then Text.Integer.greatest else (Nat.pow 2 64 : Nat) - 1
        let low : Int := if isSigned then Text.Integer.least else -high
        check arg (n < low || high < n) rest
        if n < low then return if isSigned then low else high
        else return min n high

def nextFloating : Printf Text.Floating := do
  match ← nextArg with
  | none => return .finite false 0 0
  | some arg =>
    match quoted? arg with
    | some n => return (Text.Floating.ofFraction .double false n 1).1
    | none =>
      match Text.Floating.read? .double arg.toList with
      | none =>
        check arg false arg.toList
        return .finite false 0 0
      | some (x, isOut, rest) =>
        check arg isOut rest
        return x

/-- Reads the flags of a directive. -/
def readFlags (l : Text.Layout) : List Char → Text.Layout × List Char
  | [] => (l, [])
  | c :: r =>
    match l.flag? c with
    | some l' => readFlags l' r
    | none => (l, c :: r)

/-- A width or precision, which may be taken from an argument. -/
def readCount (cs : List Char) : Printf (Option Int × List Char) := do
  match cs with
  | '*' :: r => return (some ((← nextInteger false).bmod (Nat.pow 2 32)), r)
  | _ =>
    let ds := cs.takeWhile Char.isDigit
    if ds.isEmpty then return (none, cs)
    else return (some (Text.Integer.valueOf 10 ds), cs.drop ds.length)

/-- Prints one directive for the next argument. -/
def convert (l : Text.Layout) (c : Char) (shown : String) : Printf Unit := do
  match c with
  | 's' => emit (l.text ((← nextArg).getD ""))
  | 'c' =>
    let arg ← nextArg
    emit (l.pad (String.ofList [(arg.getD "").toList.headD '\x00']))
  | 'b' =>
    let (t, ends) := unescapeText ((← nextArg).getD "")
    emit (l.text t)
    if ends then modify fun s => { s with isOver := true }
  | 'd' | 'i' => emit (l.integer (← nextInteger true))
  | 'o' | 'u' | 'x' | 'X' =>
    emit (l.natural c (((← nextInteger false) % (Nat.pow 2 64 : Nat)).toNat))
  | _ =>
    if "aAeEfFgG".toList.contains c then emit (l.floating .double c (← nextFloating))
    else StateT.lift (Sh.fail (shown ++ ": invalid directive"))

/-- Prints the directive behind a percent sign and gives back what is left. -/
def directive (cs : List Char) : Printf (List Char) := do
  let (l, rest) := readFlags .plain cs
  let (width, rest) ← readCount rest
  let l := match width with
    | some n => l.setWidth n
    | none => l
  let (l, rest) ← match rest with
    | '.' :: r => do
      let (p, r) ← readCount r
      pure (l.setPrecision (p.getD 0), r)
    | r => pure (l, r)
  match rest with
  | [] => StateT.lift (Sh.fail "missing format character")
  | c :: r =>
    convert l c ("%" ++ String.ofList (cs.take (cs.length - r.length)))
    return r

/-- Prints the format once. The number bounds how many characters are looked at. -/
def once : Nat → List Char → Printf Unit
  | 0, _ => return ()
  | _ + 1, [] => return ()
  | n + 1, c :: r => do
    if (← get).isOver then return ()
    else if c = '\\' then
      let (x, rest) := escape r
      emit (String.ofList [x])
      once n rest
    else if c = '%' then
      match r with
      | '%' :: rest =>
        emit "%"
        once n rest
      | _ =>
        let rest ← directive r
        once n rest
    else
      emit (String.ofList [c])
      once n r

/-- Prints the format until no argument is left, as long as it takes any. -/
def repeated (format : String) : Nat → Printf Unit
  | 0 => return ()
  | n + 1 => do
    let before := (← get).args.length
    once format.length format.toList
    let s ← get
    if s.isOver || s.args.isEmpty || s.args.length = before then return ()
    else repeated format n

def printf : Builtin := fun _ u => do
  match ← withoutOptions u.args with
  | [] => Sh.fail "usage: printf format [arg ...]"
  | format :: args =>
    let (_, s) ← (repeated format (args.length + 1)).run ⟨args, 0, false⟩
    return s.status

end JobConsole.Shell.Printing
