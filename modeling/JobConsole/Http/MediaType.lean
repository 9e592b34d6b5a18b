/-! # Media types

A media type has a type, a subtype and parameters. The subtype may carry a suffix behind its last
plus sign. Names are compared without regard to case. Blanks may stand in front of a parameter and
behind a quoted value, and nowhere else.
-/

namespace JobConsole.Http.MediaType

def symbols : List Char := "!#$%&'*+-.^_`|~".toList

def isNameChar (c : Char) : Bool := c.isAlphanum || symbols.contains c

def isQuotable (c : Char) : Bool := 32 ≤ c.toNat && c.toNat < 127

/-- How far a list of parameters has been read. -/
inductive Spot where
  /-- Behind a semicolon. -/
  | between
  | name
  | equalSign
  | value
  /-- Behind an opening quote, where another quote is a plain character. -/
  | openingQuote
  | quoted
  | closingQuote
  deriving DecidableEq, Repr

namespace Spot

def next : Spot → Char → Option Spot
  | between, c =>
    if c = ' ' then some between else if isNameChar c then some name else none
  | name, c =>
    if isNameChar c then some name else if c = '=' then some equalSign else none
  | equalSign, c =>
    if c = '"' then some openingQuote else if isNameChar c then some value else none
  | value, c =>
    if isNameChar c then some value else if c = ';' then some between else none
  | openingQuote, c => if isQuotable c then some quoted else none
  | quoted, c =>
    if c = '"' then some closingQuote else if isQuotable c then some quoted else none
  | closingQuote, c =>
    if c = ' ' then some closingQuote else if c = ';' then some between else none

def mayEnd : Spot → Bool
  | between | equalSign | value | closingQuote => true
  | name | openingQuote | quoted => false

end Spot

/-- Whether parameters may go on with the text and end with it. -/
def isParameters : Spot → List Char → Bool
  | p, [] => p.mayEnd
  | p, c :: r =>
    match p.next c with
    | some p' => isParameters p' r
    | none => false

/-- The part before the last plus sign that does not stand first, and the part behind it. -/
def splitSuffix (s : List Char) : List Char × Option (List Char) :=
  let suffix := (s.reverse.takeWhile (· ≠ '+')).reverse
  let front := s.take (s.length - suffix.length - 1)
  if suffix.length = s.length ∨ front.isEmpty then (s, none) else (front, some suffix)

/-- Whether a subtype is JSON or is written in it. -/
def isJsonSubtype (s : List Char) : Bool :=
  let (front, suffix) := splitSuffix s
  decide (front = "json".toList) || decide (suffix = some "json".toList)

/-- Whether a text names a media type for JSON. -/
def isJson (s : String) : Bool :=
  let cs := s.toList.map Char.toLower
  match cs.dropWhile isNameChar with
  | '/' :: r =>
    decide (cs.takeWhile isNameChar = "application".toList) &&
      isJsonSubtype (r.takeWhile isNameChar) &&
      match r.dropWhile isNameChar with
      | [] => true
      | ';' :: ps => isParameters .between ps
      | _ => false
  | _ => false

end JobConsole.Http.MediaType
