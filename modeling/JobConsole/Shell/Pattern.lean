import JobConsole.Files.System
import JobConsole.Text.Octets

/-! # Patterns

A star matches any text, a question mark any character, and a bracket expression one of the characters
that it lists. A quoted character stands for itself, and so does one behind a backslash. Where a pattern
stands for paths it is matched name by name, and a dot at the front of a name must be written.
-/

namespace JobConsole.Shell

/-- A text with a mark at each character that is quoted. -/
abbrev MarkedText := List (Char × Bool)

namespace MarkedText

def text (t : MarkedText) : String := String.ofList (t.map (·.1))

/-- Quotes each character behind a backslash that is not quoted, and leaves that backslash out. -/
def unescape : MarkedText → MarkedText
  | ('\\', false) :: (c, _) :: r => (c, true) :: unescape r
  | ('\\', false) :: [] => [('\\', true)]
  | x :: r => x :: unescape r
  | [] => []

end MarkedText

namespace Pattern

/-- A class of characters by its name. Only characters of one octet belong to classes. -/
def class? : String → Option (Char → Bool)
  | "alnum" => some Char.isAlphanum
  | "alpha" => some Char.isAlpha
  | "blank" => some fun c => c = ' ' || c = '\t'
  | "cntrl" => some fun c => c.toNat < 32 || c.toNat = 127
  | "digit" => some Char.isDigit
  | "graph" => some fun c => 32 < c.toNat && c.toNat < 127
  | "lower" => some Char.isLower
  | "print" => some fun c => 32 ≤ c.toNat && c.toNat < 127
  | "punct" => some fun c => 32 < c.toNat && c.toNat < 127 && !c.isAlphanum
  | "space" => some fun c => c = ' ' || (9 ≤ c.toNat && c.toNat ≤ 13)
  | "upper" => some Char.isUpper
  | "xdigit" => some fun c => c.isDigit || ('a' ≤ c && c ≤ 'f') || ('A' ≤ c && c ≤ 'F')
  | _ => none

/-- What a bracket expression lists. -/
inductive Member where
  | range (low high : Char)
  | named (name : String)
  deriving DecidableEq, Repr

namespace Member

def admits (m : Member) (c : Char) : Bool :=
  match m with
  | range low high => low ≤ c && c ≤ high
  | named s => (class? s).any (· c)

end Member

inductive Piece where
  | char (c : Char)
  | anyChar
  | anyText
  | oneOf (negated : Bool) (members : List Member)
  deriving DecidableEq, Repr

/-- The class named behind an opening bracket, and what follows it. -/
def className? : MarkedText → Option (String × MarkedText)
  | (':', false) :: r =>
    let name := (r.takeWhile fun x => x.1.isAlpha && !x.2).map (·.1)
    match r.drop name.length with
    | (':', false) :: (']', false) :: rest =>
      let s := String.ofList name
      if (class? s).isSome then some (s, rest) else none
    | _ => none
  | _ => none

/-- The members of a bracket expression, up to the bracket that closes it, which is not the first
character. The number bounds how many there are. -/
def members? : Nat → Bool → MarkedText → Option (List Member × MarkedText)
  | 0, _, _ | _, _, [] => none
  | n + 1, first, (a, q) :: r =>
    if a = ']' ∧ q = false ∧ first = false then some ([], r)
    else
      match if a = '[' ∧ q = false then className? r else none with
      | some (name, rest) =>
        (members? n false rest).map fun (ms, rest) => (.named name :: ms, rest)
      | none =>
        match r with
        | ('-', false) :: (b, q') :: r' =>
          if b = ']' ∧ q' = false then
            (members? n false r).map fun (ms, rest) => (.range a a :: ms, rest)
          else (members? n false r').map fun (ms, rest) => (.range a b :: ms, rest)
        | r => (members? n false r).map fun (ms, rest) => (.range a a :: ms, rest)

/-- The pieces of a pattern of at most `n` characters. -/
def pieces : Nat → MarkedText → List Piece
  | 0, _ => []
  | _ + 1, [] => []
  | n + 1, (c, true) :: r => .char c :: pieces n r
  | n + 1, ('*', false) :: r => .anyText :: pieces n r
  | n + 1, ('?', false) :: r => .anyChar :: pieces n r
  | n + 1, ('[', false) :: r =>
    let (negated, inside) := match r with
      | ('!', false) :: r' => (true, r')
      | r => (false, r)
    match members? (inside.length + 1) true inside with
    | some (ms, rest) => .oneOf negated ms :: pieces n rest
    | none => .char '[' :: pieces n r
  | n + 1, (c, false) :: r => .char c :: pieces n r

def ofMarked (t : MarkedText) : List Piece :=
  let t := t.unescape
  pieces t.length t

/-- Whether one character matches a piece other than a star. -/
def Piece.admits (p : Piece) (c : Char) : Bool :=
  match p with
  | .char d => c = d
  | .anyChar => true
  | .anyText => false
  | .oneOf negated ms => ms.any (·.admits c) != negated

def isMatch : List Piece → List Char → Bool
  | [], cs => cs.isEmpty
  | .anyText :: ps, [] => isMatch ps []
  | .anyText :: ps, c :: cs => isMatch ps (c :: cs) || isMatch (.anyText :: ps) cs
  | _ :: _, [] => false
  | p :: ps, c :: cs => p.admits c && isMatch ps cs
termination_by ps cs => ps.length + cs.length

def matchesText (t : MarkedText) (s : String) : Bool := isMatch (ofMarked t) s.toList

/-- The first of the texts that are joined by gaps. -/
def firstText (cs : List (Option Char)) : List Char :=
  match cs with
  | some c :: r => c :: firstText r
  | _ => []

/-- Where the shortest or the longest part begins or ends, at the end or the front of texts, that a
pattern matches. A part ends at a gap. -/
def cut? (atEnd longest : Bool) (t : MarkedText) (cs : List (Option Char)) : Option Nat :=
  let ps := ofMarked t
  let within := List.range ((firstText cs).length + 1)
  let all := (List.range (cs.length + 1)).reverse
  if atEnd then (if longest then within else all).find? fun i => isMatch ps (firstText (cs.drop i))
  else (if longest then all else within).find? fun i => isMatch ps (firstText (cs.take i))

/-! ## Paths -/

/-- Whether a bracket closes an expression before the next separator. It is not the first
character. -/
def closesBracket : MarkedText → Bool
  | [] => false
  | (c, _) :: r =>
    if c = '/' then false
    else
      match r with
      | (']', false) :: _ => true
      | r => closesBracket r

/-- Whether a text has more than characters that stand for themselves. -/
def isActive : MarkedText → Bool
  | [] => false
  | (c, q) :: r =>
    if q then isActive r
    else if c = '*' || c = '?' then true
    else if c = '[' then
      closesBracket (match r with
        | ('!', false) :: r' => r'
        | r => r) || isActive r
    else isActive r

/-- The names up to a separator, and what is behind it. -/
def splitName : MarkedText → MarkedText × Option MarkedText
  | [] => ([], none)
  | (c, q) :: r =>
    if c = '/' then ([], some r)
    else
      let (name, rest) := splitName r
      ((c, q) :: name, rest)

/-- The names in a directory as octets, with those that stand for it and for the one above. -/
def listing (fs : FileSystem) (dir : String) : List String :=
  match fs.readDirectory (Text.Octets.decode dir) with
  | .ok names => "." :: ".." :: names.map Text.Octets.encode
  | .error _ => []

def mayMatchName (t : MarkedText) (s : String) : Bool :=
  (s.toList.head? ≠ some '.' || t.head?.any (·.1 = '.')) && matchesText t s

def isThere (fs : FileSystem) (p : String) : Bool :=
  match fs.place false (Text.Octets.decode p) with
  | .ok (.taken _) => true
  | _ => false

/-- The paths that begin with `front` and go on as a pattern says. The number bounds how many names
there are. -/
def pathsFrom (fs : FileSystem) : Nat → String → MarkedText → List String
  | 0, _, _ => []
  | n + 1, front, t =>
    let (name, rest) := splitName t
    if isActive name then
      let names := (listing fs (if front = "" then "." else front)).filter (mayMatchName name)
      match rest with
      | none => names.map (front ++ ·)
      | some rest => names.flatMap fun s => pathsFrom fs n (front ++ s ++ "/") rest
    else
      match rest with
      | some rest => pathsFrom fs n (front ++ MarkedText.text name ++ "/") rest
      | none =>
        let p := front ++ MarkedText.text name
        if isThere fs p then [p] else []

/-- The paths that a text stands for in ascending order, if it is a pattern and there are any. -/
def paths? (fs : FileSystem) (t : MarkedText) : Option (List String) :=
  let t := t.unescape
  if isActive t then
    match (pathsFrom fs (t.length + 1) "" t).mergeSort fun a b => decide (a ≤ b) with
    | [] => none
    | ps => some ps
  else none

end Pattern

end JobConsole.Shell
