import JobConsole.Shell.Syntax

/-! # Reading scripts

A script is read character by character, and a line of it becomes a command before the next line is
looked at. An alias is a text that is read in the place of a word. Documents that commands ask for wait
until the line ends. The first thing that does not fit stops the reading, with its cause and its line.
-/

namespace JobConsole.Shell

inductive Keyword where
  | bang
  | case
  | begin
  | done
  | elif
  | otherwise
  | esac
  | fi
  | each
  | branch
  | among
  | after
  | untilDone
  | whileDone
  | opening
  | closing
  deriving DecidableEq, Repr

namespace Keyword

def table : List (String × Keyword) :=
  [ ("!", bang), ("case", case), ("do", begin), ("done", done), ("elif", elif),
    ("else", otherwise), ("esac", esac), ("fi", fi), ("for", each), ("if", branch), ("in", among),
    ("then", after), ("until", untilDone), ("while", whileDone), ("\x7b", opening),
    ("\x7d", closing) ]

def text (k : Keyword) : String :=
  match table.find? (·.2 = k) with
  | some (s, _) => s
  | none => ""

end Keyword

inductive Token where
  | finish
  | newline
  | semicolon
  | ampersand
  | andIf
  | orIf
  | bar
  | openParen
  | closeParen
  | endClause
  | word
  | redirection
  | keyword (k : Keyword)
  deriving DecidableEq, Repr

namespace Token

/-- What a token is called in a message. -/
def name : Token → String
  | finish => "end of file"
  | newline => "newline"
  | semicolon => "\";\""
  | ampersand => "\"&\""
  | andIf => "\"&&\""
  | orIf => "\"||\""
  | bar => "\"|\""
  | openParen => "\"(\""
  | closeParen => "\")\""
  | endClause => "\";;\""
  | word => "word"
  | redirection => "redirection"
  | keyword k => "\"" ++ k.text ++ "\""

/-- Whether a list of commands may end in front of a token. -/
def endsList : Token → Bool
  | finish | closeParen | endClause => true
  | keyword k => [.begin, .done, .elif, .otherwise, .esac, .fi, .after, .closing].contains k
  | _ => false

end Token

inductive SyntaxCause where
  | unexpected (t : Token) (expected : Option Token)
  | unterminatedQuote
  | missingBrace
  | missingParens
  | openBackquote
  | loopName
  | functionName
  /-- The script is more deeply nested than it can be. -/
  | depth
  deriving DecidableEq, Repr

def SyntaxCause.message : SyntaxCause → String
  | unexpected t none => t.name ++ " unexpected"
  | unexpected t (some e) => t.name ++ " unexpected (expecting " ++ e.name ++ ")"
  | unterminatedQuote => "Unterminated quoted string"
  | missingBrace => "Missing '\x7d'"
  | missingParens => "Missing '))'"
  | openBackquote => "EOF in backquote substitution"
  | loopName => "Bad for loop variable"
  | functionName => "Bad function name"
  | depth => "Too deeply nested"

structure SyntaxFault where
  line : Nat
  cause : SyntaxCause
  deriving DecidableEq, Repr

/-! ## Input -/

/-- A text that is being read. -/
structure Layer where
  rest : List Char
  /-- The alias that it is the value of. -/
  alias? : Option String
  /-- Whether it ends in a blank. -/
  blankEnd : Bool
  /-- The aliases that had just come to their end when it was put in front. -/
  carried : List String

/-- The aliases that are in use as long as a text is read. -/
def Layer.aliases (l : Layer) : List String := l.alias?.toList ++ l.carried

structure Input where
  /-- The text that is read now, and those that go on after it. -/
  layers : List Layer
  line : Nat
  /-- Whether an alias that ends in a blank has just come to its end. -/
  afterBlank : Bool
  /-- The aliases that have come to their end since the last character was taken. -/
  recent : List String

namespace Input

def ofText (s : String) : Input := ⟨[⟨s.toList, none, false, []⟩], 1, false, []⟩

/-- Leaves the texts that have come to their end, but for the last one. -/
def settle (i : Input) : Input :=
  match i.layers.span fun l => l.rest.isEmpty with
  | (gone, []) => leave i (gone.take (gone.length - 1)) (gone.drop (gone.length - 1))
  | (gone, left) => leave i gone left
where
  leave (i : Input) (gone left : List Layer) : Input :=
    { i with
      layers := left
      afterBlank := i.afterBlank || gone.any (·.blankEnd)
      recent := (gone.map Layer.aliases).flatten ++ i.recent }

def next? (i : Input) : Option (Char × Input) :=
  let i := { i with recent := [] }.settle
  match i.layers with
  | l :: ls =>
    match l.rest with
    | c :: r =>
      some (c, { i with
        layers := { l with rest := r } :: ls
        line := if c = '\n' then i.line + 1 else i.line })
    | [] => none
  | [] => none

/-- Leaves out line ends that follow a backslash, and counts them. -/
def join : Nat → List Char → Nat × List Char
  | n, '\\' :: '\n' :: r => join (n + 1) r
  | n, r => (n, r)

/-- Leaves out line ends that follow a backslash. -/
def joined (i : Input) : Input :=
  let i := i.settle
  match i.layers with
  | l :: ls =>
    let (n, r) := join i.line l.rest
    ({ i with layers := { l with rest := r } :: ls, line := n }).settle
  | [] => i

/-- Whether the value of an alias is being read, or has been read up to here. -/
def isUsing (i : Input) (name : String) : Bool :=
  i.recent.contains name || i.layers.any fun l => l.aliases.contains name

/-- Reads the value of an alias before what is left. -/
def push (i : Input) (name value : String) : Input :=
  let cs := value.toList
  let blankEnd := cs.getLast?.any fun c => c = ' ' || c = '\t'
  { i with layers := ⟨cs, some name, blankEnd, i.recent⟩ :: i.layers, recent := [] }

/-- How many characters are left. -/
def size (i : Input) : Nat := (i.layers.map (·.rest.length)).foldl (· + ·) 0

end Input

/-! ## State -/

/-- A document that is to be read when the line ends. -/
structure Expected where
  id : Nat
  delimiter : List Char
  /-- Whether tabs at the front of its lines are left out. -/
  stripped : Bool
  literal : Bool

/-- What a redirection says in front of its word. -/
inductive Arrow where
  | input
  | output
  | overwrite
  | append
  | update
  | copy
  | document (stripped : Bool)
  deriving DecidableEq, Repr

structure ReadState where
  input : Input
  /-- The last token; it is read again when it has been put back. -/
  token : Token
  isBack : Bool
  /-- The last word. -/
  word : Word
  /-- Whether something in the last word was quoted. -/
  isQuoted : Bool
  /-- The descriptor and the arrow of the last redirection. -/
  arrow : Nat × Arrow
  expected : List Expected
  documents : Documents
  nextDocument : Nat
  aliases : List (String × String)

def ReadState.start (i : Input) (aliases : List (String × String)) (nextDocument : Nat) : ReadState :=
  ⟨i, .newline, false, [], false, (0, .input), [], [], nextDocument, aliases⟩

abbrev Reading := StateT ReadState (Except SyntaxFault)

namespace Reading

def fail {α : Type} (c : SyntaxCause) : Reading α := do
  throw ⟨(← get).input.line, c⟩

def setInput (i : Input) : Reading Unit := modify fun s => { s with input := i }

/-- Takes the next character. -/
def next : Reading (Option Char) := do
  match (← get).input.next? with
  | none => return none
  | some (c, i) =>
    setInput i
    return some c

/-- Takes the next character behind line ends that follow a backslash. -/
def nextJoined : Reading (Option Char) := do
  setInput (← get).input.joined
  next

/-- The next character, which stays. -/
def peek : Reading (Option Char) := do
  return (← get).input.next?.map (·.1)

def peekJoined : Reading (Option Char) := do
  setInput (← get).input.joined
  peek

/-- Takes the next character if it is `c`. -/
def takes (c : Char) : Reading Bool := do
  if (← peekJoined) = some c then
    let _ ← next
    return true
  else return false

def putBack : Reading Unit := modify fun s => { s with isBack := true }

/-- Fails because of the last token. -/
def refuse {α : Type} (expected : Option Token) : Reading α := do
  fail (.unexpected (← get).token expected)

end Reading

end JobConsole.Shell
