import JobConsole.Shell.Fields
import JobConsole.Shell.Machine

/-! # Expansion

What words come to when they are used. Parameters, the output of commands and the values of expressions
are put in from left to right. What is put in without quotation may be cut into fields, and a field may
be a pattern that stands for paths.
-/

namespace JobConsole.Shell

open JobConsole.Host

/-- Runs commands and gives back what they print. -/
abbrev Substitution := Option Command → Sh String

/-- How a part of a word is expanded. -/
structure Setting where
  isQuoted : Bool
  /-- Whether the word becomes fields. -/
  isFull : Bool
  /-- Whether the part is the word of an operation, in which plain characters may be cut too. -/
  inOperation : Bool
  /-- Whether the home directory may stand behind each colon. -/
  inAssignment : Bool

/-- The setting of words that become fields. -/
def Setting.full : Setting := ⟨false, true, false, false⟩

/-- The setting of words that become one text. -/
def Setting.single : Setting := ⟨false, false, false, false⟩

def Setting.assignment : Setting := ⟨false, false, false, true⟩

/-- The setting of documents. -/
def Setting.document : Setting := ⟨true, false, false, false⟩

/-! ## Texts -/

/-- Text that was put in. -/
def Setting.put (s : Setting) (text : List Cell) : Stretch :=
  ⟨text, if s.isQuoted then .nowhere else .atSeparators⟩

def cellsOf (quoted : Bool) (text : String) : List Cell :=
  text.toList.map fun c => .char c quoted

/-- The users whose home directories are known. -/
def homes : List (String × String) := [("root", "/root")]

/-- The home directory that a tilde stands for in front of a word, and how much of the word names
whose it is. -/
def home? (m : Machine) (inAssignment : Bool) (rest : Word) : Option (List Cell × Nat) :=
  let ends (p : Part (Option Command)) : Bool :=
    match p with
    | .plain c => c = '/' || (c = ':' && inAssignment)
    | _ => false
  let name := rest.takeWhile fun p => !ends p
  match Word.text? name with
  | none => none
  | some user =>
    let path := if user = "" then m.value? "HOME" else homes.lookup user
    path.map fun p => (cellsOf true p, name.length)

/-! ## Parameters -/

/-- Texts with something between them. -/
def joinCells (between : List Cell) : List (List Cell) → List Cell
  | [] => []
  | [x] => x
  | x :: rest => x ++ between ++ joinCells between rest

/-- What stands between all parameters. -/
def betweenParams (m : Machine) (name : String) (s : Setting) : List Cell :=
  let separators := m.value? "IFS"
  if s.isFull && (!s.isQuoted || name = "@") then
    if s.isQuoted || separators.isSome then [.gap] else [.char ' ' false]
  else
    match separators with
    | none => [.char ' ' s.isQuoted]
    | some sep => (sep.toList.take 1).map (.char · s.isQuoted)

/-- The value of a parameter, if it has one. -/
def paramCells? (m : Machine) (name : String) (s : Setting) : Option (List Cell) :=
  let text (x : String) : Option (List Cell) := some (cellsOf s.isQuoted x)
  match name with
  | "$" => text (toString m.number)
  | "?" => text (toString m.status)
  | "#" => text (toString m.params.length)
  | "!" => m.lastBackground.bind fun n => text (toString n)
  | "-" => text m.optionText
  | "@" | "*" =>
    some (joinCells (betweenParams m name s) (m.params.map (cellsOf s.isQuoted)))
  | _ =>
    match name.toList with
    | c :: _ =>
      if c.isDigit then
        match Text.Integer.valueOf 10 name.toList with
        | 0 => text m.name
        | n + 1 => (m.params[n]?).bind text
      else (m.value? name).bind text
    | [] => none

/-- A value as a stretch of a word. -/
def paramStretches (m : Machine) (name : String) (s : Setting) (cells : List Cell) : List Stretch :=
  if s.isQuoted then
    if name = "@" && !m.params.isEmpty then
      [⟨cells, if s.isFull then .atGaps else .nowhere⟩]
    else [⟨cells, .nowhere⟩]
  else [⟨cells, .atSeparators⟩]

/-- Stops where unset parameters are not allowed. -/
def checkSet (name : String) (value : Option (List Cell)) : Sh Unit := do
  if value.isNone && (← get).has 'u' then Sh.fail (name ++ ": parameter not set")

/-- A value without the part that a pattern matches. -/
def trimCells (atEnd longest : Bool) (pattern : MarkedText) (cells : List Cell) : List Cell :=
  match Pattern.cut? atEnd longest pattern (cells.filterMap Cell.value?) with
  | none => cells
  | some i => if atEnd then cells.take i else cells.drop i

/-! ## Words -/

/-- The value of an expression, whose assignments are made. -/
def calculate (expression : String) : Sh Int := do
  match Arithmetic.evaluate (← get).scope expression with
  | .ok (n, assigned) =>
    for (name, value) in assigned do
      Sh.setVariable name (toString value) false
    return n
  | .error .overflow =>
    let _ ← Sh.call (.kill (← Sh.call .identity).1 Signal.arithmetic)
    Sh.finish
  | .error e => Sh.fail (e.message expression)

/-- How far the expansion of a word has come. -/
structure Progress where
  /-- Whether what follows is between marks. -/
  isMarked : Bool
  /-- Whether a tilde may stand for the home directory now. -/
  takesHome : Bool
  /-- Whether the sign of an assignment has been passed. -/
  isPastSign : Bool
  /-- Parts that are left out, because they belong to a tilde. -/
  left : Nat
  /-- Plain characters that are not in a stretch yet, backwards. -/
  plain : List Cell

def Progress.start (takesHome : Bool) : Progress := ⟨false, takesHome, false, 0, []⟩

/-- The plain characters as a stretch, in front of others. -/
def Progress.before (p : Progress) (s : Setting) (rest : List Stretch) : List Stretch :=
  if p.plain.isEmpty then rest
  else
    let cuts := s.inOperation && !s.isQuoted && !p.isMarked
    ⟨p.plain.reverse, if cuts then .atSeparators else .nowhere⟩ :: rest

/-- The progress behind something that is not a plain character. -/
def Progress.past (p : Progress) : Progress := { p with takesHome := false, plain := [] }

/-- The progress behind a plain character. -/
def Progress.add (p : Progress) (s : Setting) (c : Char) : Progress :=
  let isSign := s.inAssignment && c = '=' && !p.isPastSign
  { p with
    takesHome := isSign || (s.inAssignment && c = ':')
    isPastSign := p.isPastSign || isSign
    plain := .char c (s.isQuoted || p.isMarked) :: p.plain }

/-- The characters of stretches as a pattern. -/
def markedCells (ss : List Stretch) : MarkedText := markedText (ss.flatMap (·.cells))

def markStretch : Stretch := ⟨[.mark], .nowhere⟩

mutual

/-- Expands the parts of a word. -/
def expandParts (run : Substitution) (s : Setting) (p : Progress) :
    List (Part (Option Command)) → Sh (List Stretch)
  | [] => return p.before s []
  | .mark :: .param "@" .plain w :: .mark :: rest => do
    let xs ← expandPart run { s with isQuoted := s.isQuoted || !p.isMarked } (.param "@" .plain w)
    let ys ← expandParts run s p.past rest
    let around := if p.isMarked then [markStretch] else []
    return p.before s (around ++ xs ++ around ++ ys)
  | .mark :: rest => do
    let xs ← expandParts run s { p.past with isMarked := !p.isMarked } rest
    return p.before s (markStretch :: xs)
  | .plain c :: rest => do
    let m ← get
    if 0 < p.left then expandParts run s { p with left := p.left - 1 } rest
    else
      match if p.takesHome && c = '~' then home? m s.inAssignment rest else none with
      | some (cells, n) =>
        let xs ← expandParts run s { p.past with left := n } rest
        return p.before s (⟨cells, .nowhere⟩ :: xs)
      | none => expandParts run s (p.add s c) rest
  | .quoted c :: rest => do
    let xs ← expandParts run s p.past rest
    return p.before s (⟨[.char c true], .nowhere⟩ :: xs)
  | x :: rest => do
    let xs ← expandPart run { s with isQuoted := s.isQuoted || p.isMarked } x
    return p.before s (xs ++ (← expandParts run s p.past rest))

def expandPart (run : Substitution) (s : Setting) : Part (Option Command) → Sh (List Stretch)
  | .plain c => return [⟨[.char c s.isQuoted], .nowhere⟩]
  | .quoted c => return [⟨[.char c true], .nowhere⟩]
  | .mark => return [markStretch]
  | .output commands => do
    let text ← run commands
    let kept := text.toList.filter (· ≠ '\x00')
    let trimmed := (kept.reverse.dropWhile (· = '\n')).reverse
    return [s.put (trimmed.map fun c => .char c s.isQuoted)]
  | .value expression => do
    let text := plainText (← expandParts run .single (.start false) expression)
    return [s.put (cellsOf s.isQuoted (toString (← calculate text)))]
  | .param name op word => do
    let value := paramCells? (← get) name s
    let isMissing (orEmpty : Bool) : Bool := value.isNone || (orEmpty && value = some [])
    let shown (cells : List Cell) : Sh (List Stretch) := do
      return paramStretches (← get) name s cells
    let inside : Setting := { s with inOperation := true }
    match op with
    | .unknown => Sh.fail "Bad substitution"
    | .plain =>
      checkSet name value
      shown (value.getD [])
    | .length =>
      checkSet name value
      return [s.put (cellsOf s.isQuoted (toString (value.getD []).length))]
    | .default orEmpty =>
      if isMissing orEmpty then expandParts run inside (.start true) word
      else shown (value.getD [])
    | .alternative orEmpty =>
      if isMissing orEmpty then return []
      else expandParts run inside (.start true) word
    | .assign orEmpty =>
      if isMissing orEmpty then
        let text := plainText (← expandParts run .single (.start true) word)
        Sh.setVariable name text false
        shown ((paramCells? (← get) name s).getD [])
      else shown (value.getD [])
    | .demand orEmpty =>
      if isMissing orEmpty then
        let text := plainText (← expandParts run .single (.start true) word)
        let standard := "parameter not set" ++ (if orEmpty then " or null" else "")
        Sh.fail (name ++ ": " ++ (if word.isEmpty then standard else text))
      else shown (value.getD [])
    | .trimFront longest =>
      checkSet name value
      let pattern := markedCells (← expandParts run .single (.start true) word)
      shown (trimCells false longest pattern (value.getD []))
    | .trimEnd longest =>
      checkSet name value
      let pattern := markedCells (← expandParts run .single (.start true) word)
      shown (trimCells true longest pattern (value.getD []))

end

/-! ## Whole words -/

/-- What separates fields now. -/
def separators (m : Machine) : String := (m.value? "IFS").getD Machine.standardSeparators

/-- What a field comes to: the paths that it stands for, or itself. -/
def fieldTexts (m : Machine) (field : List Cell) : Sh (List String) := do
  let t := markedText field
  if m.has 'f' || !(t.any fun x => x.1 = '*' || x.1 = '?' || x.1 = '[') then return [t.text]
  else
    match Pattern.paths? (← Sh.files) t with
    | some ps => return ps
    | none => return [t.text]

/-- The texts of a word that becomes fields. -/
def expandFields (run : Substitution) (w : Word) : Sh (List String) := do
  let stretches ← expandParts run .full (.start true) w
  let m ← get
  let texts ← (Fields.ofStretches (separators m) stretches).mapM (fieldTexts m)
  return texts.flatten

/-- The text of a word that becomes one. -/
def expandText (run : Substitution) (w : Word) : Sh String := do
  return plainText (← expandParts run .single (.start true) w)

/-- The text of an assignment. -/
def expandAssignment (run : Substitution) (w : Word) : Sh String := do
  return plainText (← expandParts run .assignment (.start false) w)

def expandDocument (run : Substitution) (w : Word) : Sh String := do
  return plainText (← expandParts run .document (.start false) w)

/-- A word as a pattern. -/
def expandPattern (run : Substitution) (w : Word) : Sh MarkedText := do
  return markedCells (← expandParts run .single (.start true) w)

end JobConsole.Shell
