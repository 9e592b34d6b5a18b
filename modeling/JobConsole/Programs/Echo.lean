import JobConsole.Programs.Basic
import JobConsole.Text.Escape

/-! # Echo

Prints its arguments with blanks between them. Letters of options go together behind one dash, and an
argument with any other letter is printed like all that follow it.
-/

namespace JobConsole.Programs.Echo

open JobConsole.Host

structure Settings where
  endsLine : Bool
  escapes : Bool

def Settings.apply (s : Settings) : Char → Settings
  | 'n' => { s with endsLine := false }
  | 'e' => { s with escapes := true }
  | _ => { s with escapes := false }

def isOptions (a : String) : Bool :=
  match a.toList with
  | '-' :: c :: r => (c :: r).all fun x => x = 'n' || x = 'e' || x = 'E'
  | _ => false

/-- The settings that options make, and the words to print. -/
def settings (s : Settings) : List String → Settings × List String
  | [] => (s, [])
  | a :: rest =>
    if isOptions a then settings ((a.toList.drop 1).foldl Settings.apply s) rest else (s, a :: rest)

/-- The character of an escape behind its backslash, and what is left. -/
def escape? : List Char → Option (Char × List Char)
  | 'x' :: r =>
    match Text.Escape.digits 16 2 r with
    | (_, 0, _) => none
    | (n, _, rest) => some (Text.Escape.octet n, rest)
  | '0' :: r =>
    let (n, _, rest) := Text.Escape.digits 8 3 r
    some (Text.Escape.octet n, rest)
  | r => Text.Escape.basic? r

/-- A text with its escapes read, and whether one of them ends all output. The number bounds how many
characters are looked at. -/
def unescape : Nat → List Char → List Char × Bool
  | 0, _ => ([], false)
  | _ + 1, [] => ([], false)
  | n + 1, '\\' :: r =>
    if r.head? = some 'c' then ([], true)
    else
      match escape? r with
      | some (c, rest) =>
        let (cs, ends) := unescape n rest
        (c :: cs, ends)
      | none =>
        let (cs, ends) := unescape n r
        ('\\' :: cs, ends)
  | n + 1, c :: r =>
    let (cs, ends) := unescape n r
    (c :: cs, ends)

def output (args : List String) : String :=
  let (s, words) := settings ⟨true, false⟩ args
  let text := String.intercalate " " words
  let (cs, ends) := if s.escapes then unescape text.length text.toList else (text.toList, false)
  String.ofList cs ++ if s.endsLine && !ends then "\n" else ""

def run (i : Invocation) : Act Nat := i.conclude (output i.args) 0

end JobConsole.Programs.Echo
