import JobConsole.Shell.WordReader

/-! # Grammar

Commands are read from tokens. A word is a keyword or an alias only where a command may begin and only
if nothing in it is quoted. A list of commands ends where a token cannot belong to it; whoever asked for
the list says which token has to be there.
-/

namespace JobConsole.Shell

/-- What is looked for while a token is read. -/
structure Checks where
  /-- Whether line ends are left out. -/
  newlines : Bool
  keywords : Bool
  aliases : Bool

namespace Checks

def none : Checks := ⟨false, false, false⟩

def keywordsOnly : Checks := ⟨false, true, true⟩

def all : Checks := ⟨true, true, true⟩

end Checks

/-! ## Tokens -/

def skipComment : Nat → Reading Unit
  | 0 => return ()
  | n + 1 => do
    match ← Reading.peek with
    | none | some '\n' => return ()
    | _ =>
      let _ ← Reading.next
      skipComment n

def arrowFrom (c : Char) : Reading Arrow := do
  if c = '>' then
    if ← Reading.takes '>' then return .append
    else if ← Reading.takes '|' then return .overwrite
    else if ← Reading.takes '&' then return .copy
    else return .output
  else if ← Reading.takes '<' then return .document (← Reading.takes '-')
  else if ← Reading.takes '&' then return .copy
  else if ← Reading.takes '>' then return .update
  else return .input

/-- A redirection, if one comes now; a digit may stand in front of its arrow. -/
def readArrow : Reading Bool := do
  let isArrow (c : Option Char) : Bool := c = some '<' || c = some '>'
  let take (d : Option Nat) : Reading Bool := do
    match ← Reading.nextJoined with
    | some c =>
      let a ← arrowFrom c
      let standard := if c = '>' then 1 else 0
      modify fun s => { s with arrow := (d.getD standard, a) }
      return true
    | none => return false
  let (first, second) ← peekTwo
  if isArrow first then take none
  else
    match first with
    | some c =>
      if c.isDigit && isArrow second then
        let _ ← Reading.nextJoined
        take (some (c.toNat - '0'.toNat))
      else return false
    | none => return false

/-- Reads the next token, whatever its word may mean. -/
def readPlainToken (inner : Inner) (p : Purpose) : Nat → Reading Token
  | 0 => Reading.fail .depth
  | n + 1 => do
    let take (t : Token) : Reading Token := do
      let _ ← Reading.next
      return t
    let takeEither (c : Char) (one two : Token) : Reading Token := do
      let _ ← Reading.next
      if ← Reading.takes c then return two else return one
    match ← Reading.peekJoined with
    | none => return .finish
    | some ' ' | some '\t' =>
      let _ ← Reading.next
      readPlainToken inner p n
    | some '#' =>
      skipComment (← nameBound)
      readPlainToken inner p n
    | some '\n' => take .newline
    | some '&' => takeEither '&' .ampersand .andIf
    | some '|' => takeEither '|' .bar .orIf
    | some ';' => takeEither ';' .semicolon .endClause
    | some '(' => take .openParen
    | some ')' => take .closeParen
    | some _ =>
      if ← readArrow then return .redirection
      else
        readWord inner p
        return .word

/-- Reads the token that was put back, or the next one. -/
def readAnyToken (inner : Inner) (p : Purpose) : Reading Token := do
  let s ← get
  if s.isBack then
    set { s with isBack := false }
    return s.token
  else
    let t ← readPlainToken inner p (← nameBound)
    modify fun s => { s with token := t }
    return t

/-- Reads tokens that are not line ends. -/
def skipNewlines (inner : Inner) (p : Purpose) : Nat → Token → Reading Token
  | n + 1, .newline => do
    readDocuments inner
    let t ← readPlainToken inner p (← nameBound)
    modify fun s => { s with token := t }
    skipNewlines inner p n t
  | _, t => return t

/-- The value of an alias, unless it is being read already. -/
def ReadState.findAlias (s : ReadState) (name : String) : Option String :=
  if s.input.isUsing name then none else s.aliases.lookup name

/-- Reads a token. The number bounds how many aliases take its place. -/
def readTokenFrom (inner : Inner) (p : Purpose) : Nat → Checks → Reading Token
  | 0, _ => Reading.fail .depth
  | n + 1, k => do
    let t ← readAnyToken inner p
    let t ← if k.newlines then skipNewlines inner p (← nameBound) t else pure t
    let s ← get
    let aliases := k.aliases || s.input.afterBlank
    set { s with input := { s.input with afterBlank := false } }
    match if s.isQuoted then none else Word.text? s.word with
    | none => return t
    | some name =>
      if t ≠ .word then return t
      else
        match if k.keywords then Keyword.table.lookup name else none with
        | some w =>
          modify fun s => { s with token := .keyword w }
          return .keyword w
        | none =>
          match if aliases then s.findAlias name else none with
          | none => return t
          | some value =>
            Reading.setInput ((← get).input.push name value)
            readTokenFrom inner p n { k with aliases }

def readToken (inner : Inner) (k : Checks) : Reading Token := do
  readTokenFrom inner .word ((← get).aliases.length + 1) k

/-! ## Redirections -/

/-- What a word names as a descriptor. -/
def copySource (w : Word) : Source (Option Command) :=
  match Word.text? w with
  | some "-" => .closed
  | some s =>
    match s.toList with
    | [c] => if c.isDigit then .descriptor (c.toNat - '0'.toNat) else .copy w
    | _ => .copy w
  | none => .copy w

/-- Reads the word of a redirection. -/
def readTarget (inner : Inner) : Reading (Redirection (Option Command)) := do
  let (d, arrow) := (← get).arrow
  let isDocument := match arrow with
    | .document _ => true
    | _ => false
  let p := if isDocument then Purpose.delimiter else .word
  let t ← readTokenFrom inner p ((← get).aliases.length + 1) .none
  if t ≠ .word then Reading.refuse none
  else
    let s ← get
    match arrow with
    | .input => return ⟨d, .input s.word⟩
    | .output => return ⟨d, .output s.word⟩
    | .overwrite => return ⟨d, .overwrite s.word⟩
    | .append => return ⟨d, .append s.word⟩
    | .update => return ⟨d, .update s.word⟩
    | .copy => return ⟨d, copySource s.word⟩
    | .document stripped =>
      let e : Expected := ⟨s.nextDocument, (Word.text s.word).toList, stripped, s.isQuoted⟩
      set { s with expected := s.expected ++ [e], nextDocument := s.nextDocument + 1 }
      return ⟨d, .document e.id⟩

/-- Reads redirections while they come. The checks are for the first token. -/
def readRedirections (inner : Inner) :
    Nat → Checks → Reading (List (Redirection (Option Command)))
  | 0, _ => Reading.fail .depth
  | n + 1, k => do
    match ← readToken inner k with
    | .redirection =>
      let r ← readTarget inner
      return r :: (← readRedirections inner n .none)
    | _ =>
      Reading.putBack
      return []

/-! ## Commands -/

/-- The names of the commands that no function can be called by. -/
def specialNames : List String :=
  [ ".", ":", "break", "continue", "eval", "exec", "exit", "export", "readonly", "return", "set",
    "shift", "times", "trap", "unset" ]

def sequenceOf : Option Command → Command → Command
  | none, c => c
  | some c, d => .sequence c d

/-- A command that is not waited for. -/
def inBackground : Command → Command
  | .pipeline cs _ => .pipeline cs true
  | .redirected line body rs => .background line body rs
  | c => .background 0 c []

/-- Fails unless the next token is the expected one. -/
def expect (inner : Inner) (t : Token) : Reading Unit := do
  if (← readToken inner .none) ≠ t then Reading.refuse (some t)

/-- Reads words up to a token of another kind. -/
def readWords (inner : Inner) : Nat → Reading (List Word)
  | 0 => Reading.fail .depth
  | n + 1 => do
    if (← readToken inner .none) = .word then
      let w := (← get).word
      return w :: (← readWords inner n)
    else return []

/-- Reads the patterns of a clause. The first of them has been read. -/
def readPatterns (inner : Inner) : Nat → Reading (List Word)
  | 0 => Reading.fail .depth
  | n + 1 => do
    let w := (← get).word
    if (← readToken inner .none) = .bar then
      let _ ← readToken inner .none
      return w :: (← readPatterns inner n)
    else return [w]

/-- All parameters, each of them a word. -/
def allParams : Word := [.mark, .param "@" .plain [], .mark]

/-- What has been read of a simple command. -/
structure Draft where
  assignments : List Word
  words : List Word
  redirections : List (Redirection (Option Command))

mutual

def inner : Nat → Inner
  | 0 => ⟨Reading.fail .depth, Reading.fail .depth⟩
  | n + 1 =>
    { enclosed := fun s => (do
        let c ← readCommands n true none
        if (← readToken (inner n) .none) ≠ .closeParen then Reading.refuse (some .closeParen)
        let s ← get
        set { s with input := Input.ofText "" }
        readDocuments (inner n)
        modify fun s' => { s' with input := s.input }
        return c : Reading (Option Command)) s
      free := fun s => readCommands n true none s }

/-- Reads the commands of a list. With `mayEnd` there may be none more. -/
def readCommands : Nat → Bool → Option Command → Reading (Option Command)
  | 0, _, _ => Reading.fail .depth
  | n + 1, mayEnd, before => do
    let first ← readToken (inner n) .all
    Reading.putBack
    if first = .finish then
      readDocuments (inner n)
      modify fun s => { s with token := .finish, isBack := true }
      return before
    else if mayEnd && first.endsList then return before
    else
      let c ← readAndOr n
      let t ← readToken (inner n) .none
      let c := sequenceOf before (if t = .ampersand then inBackground c else c)
      match t with
      | .semicolon | .ampersand => readCommands n true (some c)
      | .newline =>
        Reading.putBack
        readCommands n true (some c)
      | .finish =>
        readDocuments (inner n)
        modify fun s => { s with token := .finish, isBack := true }
        return some c
      | _ =>
        Reading.putBack
        return some c

/-- Reads a list that holds some command. Where the input ends instead, the end is the next token. -/
def readBody : Nat → Reading Command
  | 0 => Reading.fail .depth
  | n + 1 => do return (← readCommands n false none).getD (.simple 0 [] [] [])

def readAndOr : Nat → Reading Command
  | 0 => Reading.fail .depth
  | n + 1 => do
    let c ← readPipeline n .none
    readRestAndOr n c

def readRestAndOr : Nat → Command → Reading Command
  | 0, _ => Reading.fail .depth
  | n + 1, c => do
    match ← readToken (inner n) .none with
    | .andIf => readRestAndOr n (.both c (← readPipeline n .all))
    | .orIf => readRestAndOr n (.either c (← readPipeline n .all))
    | _ =>
      Reading.putBack
      return c

def readPipeline : Nat → Checks → Reading Command
  | 0, _ => Reading.fail .depth
  | n + 1, k => do
    let negated := (← readToken (inner n) k) = .keyword .bang
    let k := if negated then Checks.keywordsOnly else .none
    if !negated then Reading.putBack
    let c ← readCommand n k
    let rest ← readPiped n
    let c := if rest.isEmpty then c else .pipeline (c :: rest) false
    return if negated then .negated c else c

/-- Reads the commands behind bars. -/
def readPiped : Nat → Reading (List Command)
  | 0 => Reading.fail .depth
  | n + 1 => do
    if (← readToken (inner n) .none) = .bar then
      let c ← readCommand n .all
      return c :: (← readPiped n)
    else
      Reading.putBack
      return []

/-- Reads the branches behind the test of the first one. -/
def readBranches : Nat → Command → Reading Command
  | 0, _ => Reading.fail .depth
  | n + 1, test => do
    expect (inner n) (.keyword .after)
    let body ← readBody n
    match ← readToken (inner n) .none with
    | .keyword .elif =>
      let further ← readBranches n (← readBody n)
      return .branch test body (some further)
    | .keyword .otherwise => return .branch test body (some (← readBody n))
    | _ =>
      Reading.putBack
      return .branch test body none

/-- Reads the clauses of a choice up to its end. -/
def readClauses : Nat → Reading (List (List Word × Option Command))
  | 0 => Reading.fail .depth
  | n + 1 => do
    match ← readToken (inner n) ⟨true, true, false⟩ with
    | .keyword .esac => return []
    | t =>
      if t = .openParen then
        let _ ← readToken (inner n) .none
      let patterns ← readPatterns (inner n) n
      if (← get).token ≠ .closeParen then Reading.refuse (some .closeParen)
      let body ← readCommands n true none
      match ← readToken (inner n) ⟨true, true, false⟩ with
      | .keyword .esac => return [(patterns, body)]
      | .endClause => return (patterns, body) :: (← readClauses n)
      | _ => Reading.refuse (some .endClause)

/-- The words that a loop goes through. -/
def readEachWords : Nat → Reading (List Word)
  | 0 => Reading.fail .depth
  | n + 1 => do
    match ← readToken (inner n) .all with
    | .keyword .among =>
      let words ← readWords (inner n) n
      match (← get).token with
      | .newline | .semicolon => return words
      | _ => Reading.refuse none
    | .semicolon => return [allParams]
    | _ =>
      Reading.putBack
      return [allParams]

/-- Reads the words, assignments and redirections of a simple command, or the body of a function. -/
def readSimple : Nat → Nat → Bool → Draft → Reading Command
  | 0, _, _, _ => Reading.fail .depth
  | n + 1, line, atStart, d => do
    match ← readToken (inner n) ⟨false, false, atStart⟩ with
    | .word =>
      let w := (← get).word
      if atStart && Word.isAssignment w then
        readSimple n line true { d with assignments := d.assignments ++ [w] }
      else readSimple n line false { d with words := d.words ++ [w] }
    | .redirection =>
      let r ← readTarget (inner n)
      readSimple n line atStart { d with redirections := d.redirections ++ [r] }
    | .openParen =>
      match d with
      | ⟨[], [w], []⟩ =>
        expect (inner n) .closeParen
        match Word.text? w with
        | some name =>
          if isName name && !specialNames.contains name then
            let line := (← get).input.line
            return .define line name (← readCommand n .all)
          else Reading.fail .functionName
        | none => Reading.fail .functionName
      | _ =>
        Reading.putBack
        return .simple line d.assignments d.words d.redirections
    | _ =>
      Reading.putBack
      return .simple line d.assignments d.words d.redirections

/-- Reads one command. The checks are for its first token. -/
def readCommand : Nat → Checks → Reading Command
  | 0, _ => Reading.fail .depth
  | n + 1, k => do
    let line := (← get).input.line
    let redirected (c : Command) : Reading Command := do
      match ← readRedirections (inner n) n .keywordsOnly with
      | [] => return c
      | rs =>
        match c with
        | .subshell line body _ => return .subshell line body rs
        | c => return .redirected line c rs
    match ← readToken (inner n) k with
    | .keyword .branch =>
      let c ← readBranches n (← readBody n)
      expect (inner n) (.keyword .fi)
      redirected c
    | .keyword .whileDone =>
      let test ← readBody n
      expect (inner n) (.keyword .begin)
      let body ← readBody n
      expect (inner n) (.keyword .done)
      redirected (.loop false test body)
    | .keyword .untilDone =>
      let test ← readBody n
      expect (inner n) (.keyword .begin)
      let body ← readBody n
      expect (inner n) (.keyword .done)
      redirected (.loop true test body)
    | .keyword .each =>
      let t ← readToken (inner n) .none
      let s ← get
      match if t = .word && !s.isQuoted then Word.text? s.word else none with
      | some name =>
        if isName name then
          let words ← readEachWords n
          if (← readToken (inner n) .all) ≠ .keyword .begin then
            Reading.refuse (some (.keyword .begin))
          let body ← readBody n
          expect (inner n) (.keyword .done)
          redirected (.each line name words body)
        else Reading.fail .loopName
      | none => Reading.fail .loopName
    | .keyword .case =>
      if (← readToken (inner n) .none) ≠ .word then Reading.refuse (some .word)
      let subject := (← get).word
      if (← readToken (inner n) .all) ≠ .keyword .among then
        Reading.refuse (some (.keyword .among))
      let clauses ← readClauses n
      redirected (.choice line subject clauses)
    | .openParen =>
      let body ← readBody n
      expect (inner n) .closeParen
      redirected (.subshell line body [])
    | .keyword .opening =>
      let body ← readBody n
      expect (inner n) (.keyword .closing)
      redirected body
    | .word | .redirection =>
      Reading.putBack
      readSimple n (← get).input.line true ⟨[], [], []⟩
    | _ => Reading.refuse none

end

/-- What one line of a script comes to. -/
inductive Line where
  | commands (c : Option Command)
  | finished

/-- Reads the commands up to the end of a line. -/
def readLineFrom : Nat → Option Command → Reading Line
  | 0, _ => Reading.fail .depth
  | n + 1, before => do
    match ← readToken (inner n) .keywordsOnly with
    | .newline =>
      readDocuments (inner n)
      return .commands before
    | .finish =>
      readDocuments (inner n)
      return match before with
        | none => .finished
        | some c => .commands (some c)
    | _ =>
      Reading.putBack
      let c ← readAndOr n
      let t ← readToken (inner n) .none
      let c := sequenceOf before (if t = .ampersand then inBackground c else c)
      match t with
      | .semicolon | .ampersand => readLineFrom n (some c)
      | .newline =>
        Reading.putBack
        readLineFrom n (some c)
      | .finish =>
        readDocuments (inner n)
        return .commands (some c)
      | _ => Reading.refuse none

/-- How deep a script can be nested that is so long. -/
def depthFor (size : Nat) : Nat := 16 * (size + 64)

/-- Reads a whole text as if it stood in double quotation. -/
def readQuotedText : Reading Word := do
  readWord (inner (depthFor (← get).input.size)) (.document ⟨0, ['\x00'], false, false⟩)
  return (← get).word

def readLine : Reading Line := do
  let s ← get
  let aliased := (s.aliases.map (·.2.length)).foldl (· + ·) 0
  readLineFrom (depthFor (s.input.size + aliased)) none

end JobConsole.Shell
