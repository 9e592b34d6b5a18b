/-! # Commands and words

A script is read into commands. A word is a list of parts: characters, which are quoted or not, the
places where quotation begins or ends, and what is to be put in when the word is used, a parameter, the
output of commands or the value of an expression. A document that follows its command by lines is
named by a number and kept apart.
-/

namespace JobConsole.Shell

/-- What is made of the value of a parameter. -/
inductive ParamOp where
  | plain
  | length
  /-- The word takes the place of a missing value. -/
  | default (orEmpty : Bool)
  /-- The word takes the place of a value that is there. -/
  | alternative (orEmpty : Bool)
  /-- The parameter gets the word where it has no value. -/
  | assign (orEmpty : Bool)
  /-- The word tells what is wrong where there is no value. -/
  | demand (orEmpty : Bool)
  | trimFront (longest : Bool)
  | trimEnd (longest : Bool)
  /-- Something that is no operation. -/
  | unknown
  deriving DecidableEq, Repr

/-- A part of a word, in which commands are of a type `β`. -/
inductive Part (β : Type) where
  | plain (c : Char)
  | quoted (c : Char)
  /-- Quotation begins or ends. -/
  | mark
  | param (name : String) (op : ParamOp) (word : List (Part β))
  | output (commands : β)
  | value (expression : List (Part β))

namespace Part

variable {β : Type}

def plain? : Part β → Option Char
  | .plain c => some c
  | _ => none

def char? : Part β → Option Char
  | .plain c | .quoted c => some c
  | _ => none

end Part

/-- What a descriptor is made to stand for. -/
inductive Source (β : Type) where
  | input (path : List (Part β))
  | output (path : List (Part β))
  /-- As `output`, whatever the options say. -/
  | overwrite (path : List (Part β))
  | append (path : List (Part β))
  | update (path : List (Part β))
  | descriptor (n : Nat)
  | closed
  /-- A descriptor whose number is to be worked out. -/
  | copy (word : List (Part β))
  | document (id : Nat)

structure Redirection (β : Type) where
  descriptor : Nat
  source : Source β

inductive Command where
  | simple (line : Nat) (assignments words : List (List (Part (Option Command))))
      (redirections : List (Redirection (Option Command)))
  | pipeline (commands : List Command) (background : Bool)
  | redirected (line : Nat) (body : Command) (redirections : List (Redirection (Option Command)))
  | background (line : Nat) (body : Command) (redirections : List (Redirection (Option Command)))
  | subshell (line : Nat) (body : Command) (redirections : List (Redirection (Option Command)))
  | negated (body : Command)
  | both (first second : Command)
  | either (first second : Command)
  | sequence (first second : Command)
  | branch (test body : Command) (otherwise : Option Command)
  | loop (whileFails : Bool) (test body : Command)
  | each (line : Nat) (name : String) (words : List (List (Part (Option Command)))) (body : Command)
  | choice (line : Nat) (subject : List (Part (Option Command)))
      (clauses : List (List (List (Part (Option Command))) × Option Command))
  | define (line : Nat) (name : String) (body : Command)

abbrev Word := List (Part (Option Command))

namespace Word

/-- The characters of a word that is not quoted and in which nothing is put in. -/
def text? (w : Word) : Option String := (w.mapM Part.plain?).map String.ofList

/-- The characters of a word without its quotation. -/
def text (w : Word) : String := String.ofList (w.filterMap Part.char?)

/-- The characters at the front of a word that are not quoted. -/
def front : Word → List Char
  | .plain c :: r => c :: front r
  | _ => []

end Word

/-! ## Names -/

def isNameStart (c : Char) : Bool := c.isAlpha || c = '_'

def isNameRest (c : Char) : Bool := c.isAlphanum || c = '_'

/-- The longest name at the front of a text. -/
def leadingName : List Char → List Char
  | [] => []
  | c :: r => if isNameStart c then c :: r.takeWhile isNameRest else []

def isName (s : String) : Bool := s ≠ "" && leadingName s.toList = s.toList

/-- Whether a word begins with a name and an equals sign. -/
def Word.isAssignment (w : Word) : Bool :=
  let cs := Word.front w
  let name := leadingName cs
  !name.isEmpty && (cs.drop name.length).head? = some '='

/-! ## Documents -/

/-- A document; where its delimiter was quoted, all of it is plain. -/
structure Document where
  body : Word
  literal : Bool

/-- The documents that have been read, by their numbers. -/
abbrev Documents := List (Nat × Document)

end JobConsole.Shell
