import JobConsole.Shell.Reading

/-! # Reading words

What a character means depends on the quotation around it. Inside the braces of a parameter quotation
starts afresh where it differs from the quotation outside, and so it does inside an expression; each
such stretch is a level of its own. A document is read as one word up to its delimiter.
-/

namespace JobConsole.Shell

inductive Mode where
  | base
  | double
  | single
  | expression
  deriving DecidableEq, Repr

/-- What a character does. -/
inductive Role where
  | newline
  | plain
  /-- A character that means something in a pattern or a path, in quotation. -/
  | shielded
  | backslash
  | singleQuote
  | doubleQuote
  | endQuote
  | dollar
  | closeBrace
  | openParen
  | closeParen
  | backquote
  /-- A character that ends a word. -/
  | delimiter
  deriving DecidableEq, Repr

def isShielded (c : Char) : Bool := "!*?[=~:/-]".toList.contains c

def Mode.role (m : Mode) (c : Char) : Role :=
  match m, c with
  | _, '\n' => .newline
  | .single, '\'' => .endQuote
  | .single, c => if isShielded c || c = '\\' then .shielded else .plain
  | _, '\\' => .backslash
  | _, '$' => .dollar
  | _, '\x60' => .backquote
  | _, '\x7d' => .closeBrace
  | .base, '\'' => .singleQuote
  | .base, '"' => .doubleQuote
  | .base, c => if "<>();&| \t".toList.contains c then .delimiter else .plain
  | .double, '"' => .endQuote
  | .double, c => if isShielded c then .shielded else .plain
  | .expression, '(' => .openParen
  | .expression, ')' => .closeParen
  | .expression, _ => .plain

structure Level where
  mode : Mode
  /-- Whether it is inside double quotation. -/
  isDouble : Bool
  /-- Whether double quotation has begun inside a parameter of this level. -/
  isInner : Bool
  /-- How many parameters are open in this level. -/
  params : Nat
  /-- How many of them began inside double quotation. -/
  doubled : Nat
  /-- Whether the level began with a parameter. -/
  ofParam : Bool
  parens : Nat

/-- What is open around the parts that are being read. -/
inductive Opened where
  | param (name : String) (op : ParamOp)
  | value

/-- How a word is being read. -/
structure Frame where
  level : Level
  outer : List Level
  /-- The parts that have been read, the last one first. -/
  parts : Word
  opened : List (Opened × Word)
  isQuoted : Bool

/-- What is read as one word. -/
inductive Purpose where
  | word
  /-- A word that a document ends with. -/
  | delimiter
  | document (d : Expected)

namespace Purpose

def isDocument : Purpose → Bool
  | .document _ => true
  | _ => false

def isDelimiter : Purpose → Bool
  | .delimiter => true
  | _ => false

end Purpose

namespace Frame

def start (m : Mode) : Frame :=
  ⟨⟨m, decide (m = .double), false, 0, 0, false, 0⟩, [], [], [], false⟩

def add (f : Frame) (p : Part (Option Command)) : Frame := { f with parts := p :: f.parts }

def setLevel (f : Frame) (l : Level) : Frame := { f with level := l }

/-- Starts a level. -/
def push (f : Frame) (l : Level) : Frame := { f with level := l, outer := f.level :: f.outer }

def pop (f : Frame) : Frame :=
  match f.outer with
  | l :: ls => { f with level := l, outer := ls }
  | [] => f

def enter (f : Frame) (o : Opened) : Frame :=
  { f with opened := (o, f.parts) :: f.opened, parts := [] }

/-- Puts what was opened last and its parts into the parts around it. -/
def close (f : Frame) : Frame :=
  match f.opened with
  | [] => f
  | (o, around) :: rest =>
    let inside := f.parts.reverse
    let part := match o with
      | .param name op => Part.param name op inside
      | .value => Part.value inside
    { f with opened := rest, parts := part :: around }

def quote (f : Frame) : Frame := { f with isQuoted := true }

/-- Notes that quotation begins or ends; a document keeps no marks. -/
def mark (f : Frame) (p : Purpose) : Frame := if p.isDocument then f else f.add .mark

/-- As `mark`, for double quotation. -/
def toggle (f : Frame) (p : Purpose) : Frame :=
  let l := f.level
  (if 0 < l.params then f.setLevel { l with isInner := !l.isInner } else f).mark p

/-- The end of a quotation with the character `c`. -/
def endQuote (f : Frame) (p : Purpose) (c : Char) : Frame :=
  if p.isDocument && f.level.params = 0 then f.add (.plain c)
  else
    let l := f.level
    let f := if l.doubled = 0 then f.setLevel { l with mode := .base, isDouble := false } else f
    if c = '"' then f.quote.toggle p else f.quote.mark p

def closeBrace (f : Frame) : Frame :=
  let l := f.level
  if l.isInner || l.params = 0 then f.add (.plain '\x7d')
  else
    let l' := { l with params := l.params - 1 }
    let f := f.close
    if l'.params = 0 && l.ofParam then f.pop
    else f.setLevel { l' with doubled := l'.doubled - 1 }

/-- Opens a parameter whose operation has a word. -/
def openParam (f : Frame) (name : String) (op : ParamOp) (m : Mode) : Frame :=
  let m := if m = .expression then .double else m
  let f := f.enter (.param name op)
  let f :=
    if m ≠ f.level.mode || f.level.isInner then
      f.push ⟨m, decide (m ≠ .base), false, 0, 0, true, 0⟩
    else f
  let l := f.level
  f.setLevel { l with
    params := l.params + 1, doubled := if l.isDouble then l.doubled + 1 else l.doubled }

/-- A character behind a backslash. -/
def escape (f : Frame) (p : Purpose) (c : Char) : Frame :=
  let l := f.level
  let kept := l.isDouble && c ≠ '\\' && c ≠ '\x60' && c ≠ '$' &&
    (c ≠ '"' || (p.isDocument && l.params = 0)) && (c ≠ '\x7d' || l.params = 0)
  let f := if kept then f.add (.quoted '\\') else f
  (f.add (.quoted c)).quote

end Frame

/-! ## Parameters -/

def isSpecialParam (c : Char) : Bool := "#?$!-*@".toList.contains c || c.isDigit

/-- Takes characters while they belong to a name, or are digits. -/
def takeAll (p : Char → Bool) : Nat → Reading String
  | 0 => return ""
  | n + 1 => do
    match ← Reading.peekJoined with
    | some c =>
      if p c then
        let _ ← Reading.next
        return String.ofList [c] ++ (← takeAll p n)
      else return ""
    | none => return ""

/-- The operation behind the name of a parameter in braces. The result tells whether its word is a
pattern, and whether the brace is closed. -/
def readOp : Reading (ParamOp × Bool × Bool) := do
  match ← Reading.nextJoined with
  | none => return (.unknown, false, false)
  | some '\x7d' => return (.plain, false, true)
  | some '%' => return (.trimEnd (← Reading.takes '%'), true, false)
  | some '#' => return (.trimFront (← Reading.takes '#'), true, false)
  | some c =>
    let orEmpty := decide (c = ':')
    let letter ← if orEmpty then Reading.nextJoined else pure (some c)
    let op := match letter with
      | some '-' => ParamOp.default orEmpty
      | some '+' => .alternative orEmpty
      | some '=' => .assign orEmpty
      | some '?' => .demand orEmpty
      | _ => .unknown
    return (op, false, false)

/-- Whether what follows a number sign in braces makes it ask for a length. -/
def asksLength (cs : Option Char × Option Char) : Bool :=
  match cs with
  | (some c, after) =>
    c.isAlphanum || c = '_' || (c ≠ '\x7d' && after = some '\x7d')
  | _ => false

/-- The next two characters, which stay. -/
def peekTwo : Reading (Option Char × Option Char) := do
  let first ← Reading.peekJoined
  let saved := (← get).input
  let _ ← Reading.next
  let second ← Reading.peekJoined
  Reading.setInput saved
  return (first, second)

/-- How long a name can be. -/
def nameBound : Reading Nat := do return (← get).input.size + 1

/-- The name of a parameter, or nothing where there is none. -/
def readParamName (braced : Bool) : Reading (Option String) := do
  match ← Reading.peekJoined with
  | none => return none
  | some c =>
    if isNameStart c then return some (← takeAll isNameRest (← nameBound))
    else if c.isDigit then
      let bound ← nameBound
      return some (← takeAll Char.isDigit (if braced then bound else 1))
    else if c = '\x7d' then return none
    else
      let _ ← Reading.next
      return if isSpecialParam c then some (String.ofList [c]) else none

/-- A parameter in braces. -/
def readBraced (f : Frame) : Reading Frame := do
  let m := f.level.mode
  let counted ←
    if (← Reading.peekJoined) = some '#' then
      let saved := (← get).input
      let _ ← Reading.next
      if asksLength (← peekTwo) then pure true
      else
        Reading.setInput saved
        pure false
    else pure false
  match ← readParamName true with
  | none => return f.openParam "" .unknown m
  | some name =>
    if counted then
      let closed := decide ((← Reading.peekJoined) = some '\x7d')
      return f.openParam name (if closed then .length else .unknown) m
    else
      let (op, isPattern, closed) ← readOp
      if closed then return f.add (.param name op [])
      else return f.openParam name op (if isPattern then .base else m)

/-! ## Words -/

/-- How commands inside a word are read: up to a closing parenthesis, or up to the end of the input. -/
structure Inner where
  enclosed : Reading (Option Command)
  free : Reading (Option Command)

/-- The text between backquotes. -/
def readBackquoted (isDouble : Bool) : Nat → Reading (List Char)
  | 0 => Reading.fail .depth
  | n + 1 => do
    match ← Reading.nextJoined with
    | none => Reading.fail .openBackquote
    | some '\x60' => return []
    | some '\\' =>
      match ← Reading.next with
      | none => Reading.fail .openBackquote
      | some c =>
        let rest ← readBackquoted isDouble n
        if c = '\\' || c = '\x60' || c = '$' || (isDouble && c = '"') then return c :: rest
        else return '\\' :: c :: rest
    | some c => return c :: (← readBackquoted isDouble n)

/-- Commands between backquotes, which are read as a text of their own. -/
def readOldOutput (inner : Inner) (isDouble : Bool) : Reading (Option Command) := do
  let cs ← readBackquoted isDouble (← nameBound)
  let outer ← get
  set { outer with input := Input.ofText (String.ofList cs), expected := [], isBack := false }
  let commands ← inner.free
  modify fun s => { s with input := outer.input, expected := outer.expected, isBack := false }
  return commands

/-- What a dollar sign begins. -/
def readDollar (inner : Inner) (p : Purpose) (f : Frame) : Reading Frame := do
  let next ← Reading.peekJoined
  if p.isDelimiter then return f.add (.plain '$')
  else
    match next with
    | some '(' =>
      let _ ← Reading.next
      if ← Reading.takes '(' then
        return (f.enter .value).push ⟨.expression, true, false, 0, 0, false, 0⟩
      else
        let outer := (← get).expected
        modify fun s => { s with expected := [], isBack := false }
        let commands ← inner.enclosed
        modify fun s => { s with expected := outer }
        return f.add (.output commands)
    | some '\x7b' =>
      let _ ← Reading.next
      readBraced f
    | some c =>
      if isNameStart c || isSpecialParam c then
        match ← readParamName false with
        | some name => return f.add (.param name .plain [])
        | none => return f.add (.plain '$')
      else return f.add (.plain '$')
    | none => return f.add (.plain '$')

/-- What a character does to the word that is being read; nothing if it ends the word. -/
def readRole (inner : Inner) (p : Purpose) (f : Frame) (c : Char) : Reading (Option Frame) := do
  let l := f.level
  match l.mode.role c with
  | .newline =>
    if l.mode = .base && l.params = 0 then return none
    else return some (f.add (.plain c))
  | .plain => return some (f.add (.plain c))
  | .shielded => return some (f.add (if p.isDocument && !l.isDouble then .plain c else .quoted c))
  | .backslash =>
    match ← Reading.next with
    | none => return some (f.add (.quoted '\\'))
    | some c => return some (f.escape p c)
  | .singleQuote => return some ((f.setLevel { l with mode := .single }).mark p)
  | .doubleQuote => return some ((f.setLevel { l with mode := .double, isDouble := true }).toggle p)
  | .endQuote => return some (f.endQuote p c)
  | .dollar => return some (← readDollar inner p f)
  | .closeBrace => return some f.closeBrace
  | .openParen => return some ((f.setLevel { l with parens := l.parens + 1 }).add (.plain c))
  | .closeParen =>
    if 0 < l.parens then return some ((f.setLevel { l with parens := l.parens - 1 }).add (.plain c))
    else if ← Reading.takes ')' then return some f.close.pop
    else return some (f.add (.plain c))
  | .backquote =>
    if p.isDelimiter then return some (f.quote.add (.plain c))
    else return some (f.add (.output (← readOldOutput inner l.isDouble)))
  | .delimiter => if l.params = 0 then return none else return some (f.add (.plain c))

/-- Takes the line that a document ends with, if it comes now. -/
def endsDocument (d : Expected) : Reading Bool := do
  if d.stripped then
    let rec skip : Nat → Reading Unit
      | 0 => return ()
      | n + 1 => do
        if (← Reading.peek) = some '\t' then
          let _ ← Reading.next
          skip n
    skip (← nameBound)
  let saved := (← get).input
  let rec agrees : List Char → Reading Bool
    | [] => do
      match ← Reading.next with
      | none | some '\n' => return true
      | _ => return false
    | c :: r => do
      if (← Reading.next) = some c then agrees r else return false
  if ← agrees d.delimiter then return true
  else
    Reading.setInput saved
    return false

/-- Reads a word to its end. The number bounds how many characters are looked at. -/
def readParts (inner : Inner) (p : Purpose) : Nat → Bool → Frame → Reading Frame
  | 0, _, _ => Reading.fail .depth
  | n + 1, atLineStart, f => do
    let atEnd ← match p with
      | .document d => if atLineStart then endsDocument d else pure false
      | _ => pure false
    if atEnd then return f
    else
      let saved := (← get).input
      let c ← if f.level.mode = .single then Reading.next else Reading.nextJoined
      match c with
      | none => return f
      | some c =>
        match ← readRole inner p f c with
        | some f' => readParts inner p n (decide (c = '\n')) f'
        | none =>
          let joined := if f.level.mode = .single then saved else saved.joined
          Reading.setInput joined
          return f

/-- Fails if something is open at the end of a word. -/
def checkClosed (p : Purpose) (f : Frame) : Reading Unit := do
  if f.level.mode = .expression then Reading.fail .missingParens
  else if f.level.mode ≠ .base && !p.isDocument then Reading.fail .unterminatedQuote
  else if 0 < f.level.params then Reading.fail .missingBrace

/-- Reads a word, which becomes the last one. -/
def readWord (inner : Inner) (p : Purpose) : Reading Unit := do
  let m := match p with
    | .document d => if d.literal then Mode.single else .double
    | _ => .base
  let f ← readParts inner p (← nameBound) true (.start m)
  checkClosed p f
  modify fun s => { s with word := f.parts.reverse, isQuoted := f.isQuoted }

/-- Reads the documents that are expected. -/
def readDocuments (inner : Inner) : Reading Unit := do
  let expected := (← get).expected
  modify fun s => { s with expected := [] }
  for d in expected do
    readWord inner (.document d)
    modify fun s => { s with documents := (d.id, ⟨s.word, d.literal⟩) :: s.documents }

end JobConsole.Shell
