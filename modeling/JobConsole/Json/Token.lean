import JobConsole.Json.Numeral

/-! # Tokens of a JSON text

The text is cut into tokens from left to right. Where no token can be completed the list ends with
`junk`, and the rest of the text is not looked at. A string whose escapes name an unpaired
surrogate is a complete token without a value: it may be skipped but not read.
-/

namespace JobConsole.Json

inductive Token where
  | beginArray
  | endArray
  | beginObject
  | endObject
  | comma
  | colon
  | null
  | bool (b : Bool)
  | number (n : Numeral)
  | text (s : Option String)
  | junk
  deriving DecidableEq, Repr

/-- What a string holds before surrogate pairs are joined: a character or an escaped UTF-16 unit. -/
inductive Piece where
  | char (c : Char)
  | unit (n : Nat)
  deriving DecidableEq, Repr

/-- The characters that the pieces stand for; none if a surrogate is unpaired. -/
def joinPieces : List Piece → Option (List Char)
  | [] => some []
  | .char c :: r => (joinPieces r).map (c :: ·)
  | .unit n :: r =>
    if 0xD800 ≤ n ∧ n < 0xDC00 then
      match r with
      | .unit m :: r' =>
        if 0xDC00 ≤ m ∧ m < 0xE000 then
          (joinPieces r').map (Char.ofNat (0x10000 + (n - 0xD800) * 0x400 + (m - 0xDC00)) :: ·)
        else none
      | _ => none
    else if 0xDC00 ≤ n ∧ n < 0xE000 then none
    else (joinPieces r).map (Char.ofNat n :: ·)

/-- How far a numeral has been read. -/
inductive NumeralStage where
  | sign
  | zero
  | whole
  | point
  | fraction
  | mark
  | markSign
  | power
  deriving DecidableEq, Repr

/-- What the characters read so far belong to. Digits and pieces are held latest first. -/
inductive Lexing where
  | between
  | word (rest : List Char) (token : Token)
  | text (pieces : List Piece)
  | escape (pieces : List Piece)
  | hex (pieces : List Piece) (digits : Nat) (value : Nat)
  | numeral (stage : NumeralStage) (soFar : Numeral)
  deriving DecidableEq, Repr

def isSpace (c : Char) : Bool := c = ' ' || c = '\n' || c = '\t' || c = '\r'

def digit? (c : Char) : Option Nat :=
  if '0' ≤ c ∧ c ≤ '9' then some (c.toNat - 48) else none

def hexValue? (c : Char) : Option Nat :=
  if '0' ≤ c ∧ c ≤ '9' then some (c.toNat - 48)
  else if 'a' ≤ c ∧ c ≤ 'f' then some (c.toNat - 87)
  else if 'A' ≤ c ∧ c ≤ 'F' then some (c.toNat - 55)
  else none

def simpleEscape? (c : Char) : Option Char :=
  if c = '"' ∨ c = '\\' ∨ c = '/' then some c
  else if c = 'b' then some (Char.ofNat 8)
  else if c = 'f' then some (Char.ofNat 12)
  else if c = 'n' then some '\n'
  else if c = 'r' then some '\r'
  else if c = 't' then some '\t'
  else none

/-- What a character starts where a token may start; none if nothing starts with it. -/
def start (c : Char) : Option (List Token × Lexing) :=
  if isSpace c then some ([], .between)
  else if c = '[' then some ([.beginArray], .between)
  else if c = ']' then some ([.endArray], .between)
  else if c = '{' then some ([.beginObject], .between)
  else if c = '}' then some ([.endObject], .between)
  else if c = ',' then some ([.comma], .between)
  else if c = ':' then some ([.colon], .between)
  else if c = '"' then some ([], .text [])
  else if c = 'n' then some ([], .word ['u', 'l', 'l'] .null)
  else if c = 't' then some ([], .word ['r', 'u', 'e'] (.bool true))
  else if c = 'f' then some ([], .word ['a', 'l', 's', 'e'] (.bool false))
  else if c = '-' then some ([], .numeral .sign ⟨true, [], [], none⟩)
  else if c = '0' then some ([], .numeral .zero ⟨false, [0], [], none⟩)
  else (digit? c).map fun d => ([], .numeral .whole ⟨false, [d], [], none⟩)

/-- How a numeral goes on with a character; none if it does not. -/
def NumeralStage.next (s : NumeralStage) (n : Numeral) (c : Char) :
    Option (NumeralStage × Numeral) :=
  let isMark := c = 'e' || c = 'E'
  let power (d : Nat) : Option (Bool × List Nat) :=
    n.exponent.map fun x => (x.1, d :: x.2)
  match s, digit? c with
  | .sign, some 0 => some (.zero, { n with whole := [0] })
  | .sign, some d => some (.whole, { n with whole := [d] })
  | .whole, some d => some (.whole, { n with whole := d :: n.whole })
  | .point, some d => some (.fraction, { n with fraction := [d] })
  | .fraction, some d => some (.fraction, { n with fraction := d :: n.fraction })
  | .mark, some d => some (.power, { n with exponent := power d })
  | .markSign, some d => some (.power, { n with exponent := power d })
  | .power, some d => some (.power, { n with exponent := power d })
  | .zero, none | .whole, none =>
    if c = '.' then some (.point, n)
    else if isMark then some (.mark, { n with exponent := some (false, []) })
    else none
  | .fraction, none =>
    if isMark then some (.mark, { n with exponent := some (false, []) }) else none
  | .mark, none =>
    if c = '+' then some (.markSign, n)
    else if c = '-' then some (.markSign, { n with exponent := some (true, []) })
    else none
  | _, _ => none

/-- Whether a numeral may end here, before the character `c` or at the end of the text. -/
def NumeralStage.mayEnd (s : NumeralStage) (c : Option Char) : Bool :=
  match s with
  | .whole | .fraction | .power => true
  | .zero => (c.bind digit?).isNone
  | _ => false

def Numeral.inOrder (n : Numeral) : Numeral :=
  ⟨n.negative, n.whole.reverse, n.fraction.reverse, n.exponent.map fun x => (x.1, x.2.reverse)⟩

def textToken (pieces : List Piece) : Token :=
  .text ((joinPieces pieces.reverse).map String.ofList)

def lex : Lexing → List Char → List Token
  | .between, [] => []
  | .numeral s n, [] => if s.mayEnd none then [.number n.inOrder] else [.junk]
  | _, [] => [.junk]
  | .between, c :: r =>
    match start c with
    | some (ts, l) => ts ++ lex l r
    | none => [.junk]
  | .word w t, c :: r =>
    match w with
    | [] => [.junk]
    | [d] => if c = d then t :: lex .between r else [.junk]
    | d :: e :: w' => if c = d then lex (.word (e :: w') t) r else [.junk]
  | .text ps, c :: r =>
    if c = '"' then textToken ps :: lex .between r
    else if c = '\\' then lex (.escape ps) r
    else if c.toNat < 32 then [.junk]
    else lex (.text (.char c :: ps)) r
  | .escape ps, c :: r =>
    if c = 'u' then lex (.hex ps 0 0) r
    else
      match simpleEscape? c with
      | some d => lex (.text (.char d :: ps)) r
      | none => [.junk]
  | .hex ps k v, c :: r =>
    match hexValue? c with
    | none => [.junk]
    | some d =>
      if k = 3 then lex (.text (.unit (16 * v + d) :: ps)) r
      else lex (.hex ps (k + 1) (16 * v + d)) r
  | .numeral s n, c :: r =>
    match s.next n c with
    | some (s', n') => lex (.numeral s' n') r
    | none =>
      if s.mayEnd (some c) then
        match start c with
        | some (ts, l) => .number n.inOrder :: (ts ++ lex l r)
        | none => [.number n.inOrder, .junk]
      else [.junk]

def tokens (s : String) : List Token := lex .between s.toList

end JobConsole.Json
