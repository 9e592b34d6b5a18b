import JobConsole.Text.Integer
import JobConsole.Text.Utf8

/-! # Shielded texts

Texts as they are shown in messages, or written so that a shell reads them back. A character that
cannot be shown is written by its escape.
-/

namespace JobConsole.Text.Shielded

/-- The letter of the escape for a control character. -/
def escape? : Char → Option Char
  | '\x07' => some 'a'
  | '\x08' => some 'b'
  | '\x09' => some 't'
  | '\x0a' => some 'n'
  | '\x0b' => some 'v'
  | '\x0c' => some 'f'
  | '\x0d' => some 'r'
  | _ => none

def octal (c : Char) : List Char :=
  let digits := Nat.toDigits 8 c.toNat
  List.replicate (3 - digits.length) '0' ++ digits

/-- The escape of a character behind its backslash. -/
def escaped (c : Char) : List Char :=
  match escape? c with
  | some e => [e]
  | none => octal c

/-- A piece of a text: characters that can be shown, or one that cannot. -/
inductive Piece where
  | shown (cs : List Char)
  | hidden (c : Char)
  deriving DecidableEq, Repr

/-- The octets of the UTF-8 character at the front, if there is one that can be shown. -/
def wide? (cs : List Char) : Option (List Char) :=
  let candidates := [2, 3, 4].filterMap fun n =>
    let front := cs.take n
    let bytes := front.map fun c => c.toNat.toUInt8
    match (Utf8.decodeLossy bytes).toList with
    | [c] => if front.length = n && c ≠ '\uFFFD' && 0xA0 ≤ c.toNat then some front else none
    | _ => none
  candidates.head?

/-- The pieces of a text of octets. -/
def pieces (isUnicode : Bool) : Nat → List Char → List Piece
  | 0, _ => []
  | _ + 1, [] => []
  | n + 1, c :: r =>
    if 0x20 ≤ c.toNat && c.toNat < 0x7f then .shown [c] :: pieces isUnicode n r
    else if c.toNat < 0x80 then .hidden c :: pieces isUnicode n r
    else
      match if isUnicode then wide? (c :: r) else none with
      | some front => .shown front :: pieces isUnicode n ((c :: r).drop front.length)
      | none => .hidden c :: pieces isUnicode n r

def piecesOf (isUnicode : Bool) (s : String) : List Piece := pieces isUnicode s.length s.toList

/-- A text as it is named in a message. -/
def named (isUnicode : Bool) (s : String) : String :=
  let (left, right) := if isUnicode then ("\xe2\x80\x98", "\xe2\x80\x99") else ("'", "'")
  let inside := (piecesOf isUnicode s).flatMap fun p =>
    match p with
    | .shown ['\\'] => ['\\', '\\']
    | .shown ['\''] => if isUnicode then ['\''] else ['\\', '\'']
    | .shown cs => cs
    | .hidden c => '\\' :: escaped c
  left ++ String.ofList inside ++ right

/-! ## For shells -/

/-- Characters that a shell leaves alone wherever they stand, in any kind of quotation. -/
def isHarmless (c : Char) : Bool :=
  c.isAlphanum || "%+,-./:]_".toList.contains c || 0x80 ≤ c.toNat

/-- Whether a shell has to be kept from a character at a place of a text. -/
def isDangerous (isAlone isFirst : Bool) (c : Char) : Bool :=
  match c with
  | '\x7b' | '\x7d' => isAlone
  | '#' | '~' => isFirst
  | c => " !\"$&()*;<=>[^\x60|'?\\".toList.contains c

/-- Whether a character stands for itself in double quotation as well. -/
def isGentle (isAlone isFirst : Bool) (c : Char) : Bool :=
  isHarmless c || c = ' ' || c = '\'' || (isAlone && (c = '\x7b' || c = '\x7d')) ||
    (isFirst && (c = '#' || c = '~'))

/-- Quoted pieces; hidden characters stand in a quotation of their own, which is open or not. -/
def quotedPieces : Bool → List Piece → List Char
  | isOpen, [] => if isOpen then [] else []
  | true, .hidden c :: r => '\\' :: escaped c ++ quotedPieces true r
  | false, .hidden c :: r => "'$'\\".toList ++ escaped c ++ quotedPieces true r
  | isOpen, .shown cs :: r =>
    let front := if isOpen then "''".toList else []
    let text := if cs = ['\''] then "'\\''".toList else cs
    front ++ text ++ quotedPieces false r

/-- A text as a shell reads it back. It is quoted where it has to be, or `always`, or if it holds a
character that `also` names. -/
def forShell (isUnicode always : Bool) (also : Char → Bool) (s : String) : String :=
  let ps := piecesOf isUnicode s
  let isAlone := s.length = 1
  let marked := s.toList.zipIdx
  let isPlain := ps.all (fun p => match p with
      | .shown _ => true
      | .hidden _ => false) &&
    marked.all fun (c, i) => !isDangerous isAlone (i = 0) c && !also c
  if !always && isPlain && s ≠ "" then s
  else if s.toList.contains '\'' && marked.all (fun (c, i) => isGentle isAlone (i = 0) c) &&
      ps.all (fun p => match p with
        | .shown _ => true
        | .hidden _ => false) then "\"" ++ s ++ "\""
  else "'" ++ String.ofList (quotedPieces false ps) ++ "'"

end JobConsole.Text.Shielded
