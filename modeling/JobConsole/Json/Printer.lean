import JobConsole.Json.Value
import JobConsole.Json.Decimal

/-! # JSON text

The compact text of a value: no blanks between tokens, members in the order they are held. In a
string the quote, the backslash and the characters below the space are escaped and nothing else is,
so the text of a value never holds a line break.
-/

namespace JobConsole.Json

def hexDigit (n : Nat) : Char :=
  if n < 10 then Char.ofNat (48 + n) else Char.ofNat (87 + n)

def escapeChar (c : Char) : List Char :=
  if c = '"' then ['\\', '"']
  else if c = '\\' then ['\\', '\\']
  else if c.toNat = 8 then ['\\', 'b']
  else if c.toNat = 9 then ['\\', 't']
  else if c.toNat = 10 then ['\\', 'n']
  else if c.toNat = 12 then ['\\', 'f']
  else if c.toNat = 13 then ['\\', 'r']
  else if c.toNat < 32 then
    ['\\', 'u', '0', '0', hexDigit (c.toNat / 16), hexDigit (c.toNat % 16)]
  else [c]

def quote (s : String) : List Char :=
  '"' :: (s.toList.flatMap escapeChar ++ ['"'])

def numberChars : Number → List Char
  | .int n => (toString n).toList
  | .double bits => Decimal.chars bits

mutual

def chars : Json → List Char
  | .null => ['n', 'u', 'l', 'l']
  | .bool true => ['t', 'r', 'u', 'e']
  | .bool false => ['f', 'a', 'l', 's', 'e']
  | .number n => numberChars n
  | .text s => quote s
  | .array [] => ['[', ']']
  | .array (v :: r) => '[' :: (chars v ++ itemsTail r)
  | .object [] => ['{', '}']
  | .object ((k, v) :: r) => '{' :: (quote k ++ ':' :: (chars v ++ membersTail r))

def itemsTail : List Json → List Char
  | [] => [']']
  | v :: r => ',' :: (chars v ++ itemsTail r)

def membersTail : List (String × Json) → List Char
  | [] => ['}']
  | (k, v) :: r => ',' :: (quote k ++ ':' :: (chars v ++ membersTail r))

end

def render (v : Json) : String := String.ofList (chars v)

end JobConsole.Json
