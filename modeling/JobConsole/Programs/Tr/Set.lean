import JobConsole.Text.Escape
import JobConsole.Text.Shielded

/-! # Sets of octets

A set is written as a text of characters, ranges, classes in brackets, and characters with a count of
how often they stand there. Where the count is left out a character stands there as often as is needed.
The order counts.
-/

namespace JobConsole.Programs.Tr

/-- A character, and whether a backslash keeps it from having a meaning. -/
abbrev Sign := Char × Bool

inductive Element where
  | char (c : Char)
  | range (first last : Char)
  | class (name : String)
  | equivalent (c : Char)
  | repeated (c : Char) (count : Option Nat)
  deriving DecidableEq, Repr

/-- Reads the escapes of a text. The number bounds how many characters are looked at. -/
def signs : Nat → List Char → List Sign
  | 0, _ => []
  | _ + 1, [] => []
  | n + 1, '\\' :: r =>
    match r with
    | [] => [('\\', false)]
    | 'e' :: rest => ('e', true) :: signs n rest
    | c :: rest =>
      if Text.Escape.isOctal c then
        let three := Text.Escape.digits 8 3 r
        let (value, _, rest) := if three.1 < 256 then three else Text.Escape.digits 8 2 r
        (Text.Escape.octet value, true) :: signs n rest
      else (((Text.Escape.letter? c).getD c), true) :: signs n rest
  | n + 1, c :: r => (c, false) :: signs n r

/-! ## Classes -/

def octetRange (first last : Nat) : List Char :=
  (List.range' first (last + 1 - first)).map Char.ofNat

/-- The members of a class in ascending order. -/
def classMembers? : String → Option (List Char)
  | "lower" => some (octetRange 97 122)
  | "upper" => some (octetRange 65 90)
  | "digit" => some (octetRange 48 57)
  | "alpha" => some (octetRange 65 90 ++ octetRange 97 122)
  | "alnum" => some (octetRange 48 57 ++ octetRange 65 90 ++ octetRange 97 122)
  | "blank" => some ['\t', ' ']
  | "space" => some (octetRange 9 13 ++ [' '])
  | "cntrl" => some (octetRange 0 31 ++ ['\x7f'])
  | "print" => some (octetRange 32 126)
  | "graph" => some (octetRange 33 126)
  | "punct" =>
    some (octetRange 33 47 ++ octetRange 58 64 ++ octetRange 91 96 ++ octetRange 123 126)
  | "xdigit" => some (octetRange 48 57 ++ octetRange 65 70 ++ octetRange 97 102)
  | _ => none

/-! ## Reading -/

/-- What stands between an opening bracket with its sign and the same sign with a closing bracket. -/
def enclosed? (d : Char) : List Sign → Option (List Char × List Sign)
  | x :: y :: r =>
    if x = (d, false) && y = (']', false) then some ([], r)
    else (enclosed? d (y :: r)).map fun (cs, rest) => (x.1 :: cs, rest)
  | _ => none

/-- What stands in front of a closing bracket, if nothing in it is behind a backslash. -/
def upToBracket? : List Sign → Option (List Char × List Sign)
  | (']', false) :: r => some ([], r)
  | (c, false) :: r => (upToBracket? r).map fun (cs, rest) => (c :: cs, rest)
  | _ => none

/-- Whether a star with a count and a closing bracket comes. -/
def isCounted : List Sign → Bool
  | ('*', false) :: r =>
    match r.dropWhile fun x => x.1.isDigit with
    | (']', false) :: _ => true
    | _ => false
  | _ => false

/-- The count in a bracket, or nothing if it is no number. -/
def count? (cs : List Char) : Option (Option Nat) :=
  let base := if cs.head? = some '0' then 8 else 10
  if cs.isEmpty then some none
  else if cs.all (Text.Integer.isDigitOf base) then
    let n := Text.Integer.valueOf base cs
    if Nat.pow 2 63 ≤ n then none else some (if n = 0 then none else some n)
  else none

/-- A character with its count behind an opening bracket; nothing if it is not that. -/
def readRepeated (isUnicode : Bool) (s : List Sign) :
    Except String (Option (Element × List Sign)) :=
  match s with
  | (c, _) :: ('*', false) :: r =>
    match upToBracket? r with
    | none => .ok none
    | some (digits, rest) =>
      match count? digits with
      | some n => .ok (some (.repeated c n, rest))
      | none =>
        .error ("invalid repeat count " ++ Text.Shielded.named isUnicode (String.ofList digits) ++
          " in [c*n] construct")
  | _ => .ok none

/-- A class behind an opening bracket and its sign; nothing if it is not that. -/
def readClass (isUnicode : Bool) (d : Char) (s : List Sign) :
    Except String (Option (Element × List Sign)) :=
  match enclosed? d s with
  | none => .ok none
  | some (cs, rest) =>
    let name := String.ofList cs
    if d = ':' then
      if cs.isEmpty then .error "missing character class name '[::]'"
      else if (classMembers? name).isSome then .ok (some (.class name, rest))
      else if isCounted s then .ok none
      else .error ("invalid character class " ++ Text.Shielded.named isUnicode name)
    else
      match cs with
      | [] => .error "missing equivalence class character '[==]'"
      | [c] => .ok (some (.equivalent c, rest))
      | _ =>
        if isCounted s then .ok none
        else .error (name ++ ": equivalence class operand must be a single character")

/-- The element in brackets at the front, if there is one. -/
def readBracket (isUnicode : Bool) : List Sign → Except String (Option (Element × List Sign))
  | ('[', false) :: (d, q) :: r =>
    let class? :=
      if !q && (d = ':' || d = '=') then readClass isUnicode d r else .ok none
    match class? with
    | .ok none => readRepeated isUnicode ((d, q) :: r)
    | x => x
  | _ => .ok none

def shownChar (c : Char) : String :=
  if 0x20 ≤ c.toNat && c.toNat < 0x7f then String.ofList [c]
  else String.ofList ('\\' :: Text.Shielded.escaped c)

/-- The elements of a set. The number bounds how many characters are looked at. -/
def elements (isUnicode : Bool) : Nat → List Sign → Except String (List Element)
  | 0, _ => .ok []
  | n + 1, s =>
    match s with
    | x :: y :: z :: r =>
      match readBracket isUnicode s with
      | .error e => .error e
      | .ok (some (e, rest)) => (elements isUnicode n rest).map (e :: ·)
      | .ok none =>
        if y = ('-', false) then
          if z.1 < x.1 then
            .error ("range-endpoints of '" ++ shownChar x.1 ++ "-" ++ shownChar z.1 ++
              "' are in reverse collating sequence order")
          else (elements isUnicode n r).map (.range x.1 z.1 :: ·)
        else (elements isUnicode n (y :: z :: r)).map (.char x.1 :: ·)
    | rest => .ok (rest.map fun x => .char x.1)

/-- The elements of a set as it is written. -/
def readSet (isUnicode : Bool) (text : String) : Except String (List Element) :=
  let s := signs text.length text.toList
  elements isUnicode (s.length + 1) s

/-! ## Members -/

def Element.members : Element → List Char
  | .char c => [c]
  | .range a b => octetRange a.toNat b.toNat
  | .class name => (classMembers? name).getD []
  | .equivalent c => [c]
  | .repeated c n => List.replicate (min (n.getD 0) 256) c

def Element.size : Element → Nat
  | .repeated _ n => n.getD 0
  | e => e.members.length

/-- Whether a character stands there as often as is needed. -/
def Element.isOpen : Element → Bool
  | .repeated _ none => true
  | _ => false

def Element.isClass : Element → Bool
  | .class _ => true
  | _ => false

/-- Whether an element is a class of small or of capital letters. -/
def Element.isCase : Element → Bool
  | .class "lower" | .class "upper" => true
  | _ => false

def membersOf (es : List Element) : List Char := es.flatMap Element.members

def sizeOf (es : List Element) : Nat := (es.map Element.size).foldl (· + ·) 0

/-- All octets that are not in a list, in ascending order. -/
def complement (cs : List Char) : List Char := (octetRange 0 255).filter fun c => !cs.contains c

end JobConsole.Programs.Tr
