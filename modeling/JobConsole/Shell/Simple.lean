import JobConsole.Shell.Builtin.Table

/-! # Simple commands

A simple command is made of words, assignments and redirections. The words are expanded first, then the
redirections are made, then the assignments. The first word names what is run: a special builtin
command, a function, another builtin command or a program. What is assigned in front of a function or
a command that is not special is seen only by it.
-/

namespace JobConsole.Shell

open JobConsole.Host

/-! ## Words -/

/-- What is known of a simple command while its words are expanded. -/
structure Heading where
  /-- The words that name commands and say how they are run, before the command that is run. -/
  before : List String
  /-- The command that is run, and the words behind it that have been expanded. -/
  words : List String
  /-- The words that have not been expanded. -/
  rest : List Word
  /-- Whether functions are left out. -/
  isDirect : Bool
  /-- Where programs are looked for. -/
  path : Option String
  /-- Whether the first command is special; nothing if it is no builtin command. -/
  isSpecial : Option Bool

/-- Expands words until there is one. -/
def expandNext (r : Runner) : List Word → Sh (List String × List Word)
  | [] => return ([], [])
  | w :: ws => do
    let xs ← expandFields r.output w
    if xs.isEmpty then expandNext r ws else return (xs, ws)

/-- The heading with a word more behind the first so many, if there is one. -/
def Heading.reach (r : Runner) (h : Heading) (n : Nat) : Sh (Option Heading) := do
  if n < h.words.length then return some h
  else
    let (xs, rest) ← expandNext r h.rest
    if xs.isEmpty then return none else return some { h with words := h.words ++ xs, rest }

/-- Reads the options behind `command`. The result is what the command behind them is, or nothing
where there is none to be run. -/
def Heading.pass (r : Runner) : Nat → Nat → Heading → Sh (Heading × Bool)
  | 0, _, h => return (h, false)
  | fuel + 1, n, h => do
    match ← h.reach r n with
    | none => return (h, false)
    | some h =>
      let start (k : Nat) (h : Heading) : Heading × Bool :=
        ({ h with before := h.before ++ h.words.take k, words := h.words.drop k, isDirect := true },
          true)
      match ((h.words[n]?).getD "").toList with
      | ['-', '-'] =>
        match ← h.reach r (n + 1) with
        | none => return (h, false)
        | some h => return start (n + 1) h
      | '-' :: c :: cs =>
        if (c :: cs).all (· = 'p') then
          Heading.pass r fuel (n + 1) { h with path := some Control.standardPath }
        else return (h, false)
      | _ => return start n h

/-- What a name stands for. -/
inductive Meaning where
  | function (f : Function)
  | builtin (kind : BuiltinKind) (b : Builtin)
  | program

def Machine.meaning (m : Machine) (isDirect : Bool) (name : String) : Meaning :=
  match if isDirect then none else m.functions.lookup name with
  | some f => .function f
  | none =>
    match BuiltinKind.table.lookup name, Builtin.table.lookup name with
    | some kind, some b => .builtin kind b
    | _, _ => .program

/-- Finds the command that is run, behind any number of `command`. -/
def Heading.settle (r : Runner) : Nat → Heading → Sh Heading
  | 0, h => return h
  | fuel + 1, h => do
    let name := h.words.headD ""
    match (← get).meaning h.isDirect name with
    | .builtin kind _ =>
      let h := { h with isSpecial := some (h.isSpecial.getD kind.isSpecial) }
      if name ≠ "command" then return h
      else
        match ← h.pass r (fuel + 1) 1 with
        | (h, false) => return h
        | (h, true) => h.settle r fuel
    | _ => return h

/-- The arguments that are left to expand. -/
def expandRest (r : Runner) (takesAssignments : Bool) : List Word → Sh (List String)
  | [] => return []
  | w :: ws => do
    let xs ←
      if takesAssignments && Word.isAssignment w then do pure [← expandAssignment r.output w]
      else expandFields r.output w
    return xs ++ (← expandRest r takesAssignments ws)

/-- Expands the words of a simple command. -/
def expandHeading (r : Runner) (words : List Word) : Sh (Option Heading) := do
  let (xs, rest) ← expandNext r words
  if xs.isEmpty then return none
  else
    let fuel := words.length + xs.length + 8
    let h ← Heading.settle r fuel ⟨[], xs, rest, false, none, none⟩
    let takesAssignments := match (← get).meaning h.isDirect (h.words.headD "") with
      | .builtin kind _ => kind.takesAssignments
      | _ => false
    let more ← expandRest r takesAssignments h.rest
    return some { h with words := h.words ++ more, rest := [] }

/-! ## Tracing -/

/-- What is shown in front of a traced command. -/
def traceFront (r : Runner) : Sh String := do
  let m ← get
  let text := (m.value? "PS4").getD ""
  match readQuotedText.run (.start (.ofText text) m.aliases m.nextDocument) with
  | .error _ => return text
  | .ok (w, _) =>
    set { m with isTracing := true }
    let front ← expandDocument r.output w
    modify fun m => { m with isTracing := false }
    return front

/-- Shows a command on what the error output stood for before its redirections. -/
def trace (r : Runner) (kept : Kept) (words : List String) : Sh Unit := do
  let m ← get
  if m.has 'x' && !m.isTracing then
    let front ← traceFront r
    let descriptor := ((kept.lookup 2).bind id).getD 2
    let _ ← Sh.write descriptor (front ++ String.intercalate " " words ++ "\n")

/-! ## Running -/

/-- Runs a builtin command. A failure of one that is not special is a status. -/
def runBuiltin (r : Runner) (isSpecial : Bool) (b : Builtin) (u : Usage) : Sh Nat := do
  let outer := (← get).command
  modify fun m => { m with command := some u.name }
  let result : Except Stop Nat ← tryCatch
    (do
      let status ← b r u
      if ← Sh.flush then return .ok status
      else
        Sh.warn (((← get).command.getD "") ++ ": I/O error")
        return .ok (status ||| 1))
    (fun e => return .error e)
  modify fun m => { m with command := outer }
  match result with
  | .ok status => return status
  | .error e => if e = .error && !isSpecial then return (← get).status else throw e

/-- Runs a function with parameters of its own. -/
def runFunction (r : Runner) (f : Function) (words : List String) (flags : Flags) : Sh Nat := do
  let m ← get
  set { m with params := words.drop 1, optionPlace := (1, 0), loops := 0 }
  let result : Except Stop Nat ←
    tryCatch (do return .ok (← r.run (.command f.body flags.inner))) fun e => return .error e
  modify fun m' =>
    let skip := match m'.skip with
      | .function _ => .nothing
      | s => s
    { m' with params := m.params, optionPlace := m.optionPlace, loops := m.loops, skip }
  match result with
  | .ok status => return status
  | .error e => throw e

/-- Runs a program in a process of its own, or as the last thing that the shell does. -/
def runProgram (r : Runner) (h : Heading) (flags : Flags) : Sh Nat := do
  let m ← get
  let name := h.words.headD ""
  let path := h.path.getD (searchPath m)
  let fs ← Sh.files
  let isNamed := name.toList.contains '/'
  if !isNamed && (Control.findExecutable? fs path name).isNone then
    let reason := match Control.searchProgram fs path name with
      | .error e => if e.isAbsence then "not found" else e.reason
      | .ok _ => "not found"
    Sh.warn (name ++ ": " ++ reason)
    return 127
  else
    if !isNamed && h.path.isNone then
      modify (·.remember name)
    if flags.isLast && !(← get).hasTraps then Control.become r path h.words
    else
      let job ← openJob
      r.spawn job .waited (Control.become r path h.words)
      awaitJob job

def runHeading (r : Runner) (h : Heading) (flags : Flags) : Sh Nat := do
  match (← get).meaning h.isDirect (h.words.headD "") with
  | .function f => runFunction r f h.words flags
  | .builtin _ b =>
    runBuiltin r (h.isSpecial = some true) b ⟨h.words.headD "", h.words.drop 1, flags⟩
  | .program => runProgram r h flags

/-- Makes the assignments in front of a command and gives them as they are shown. -/
def makeAssignments (r : Runner) (isLocal isExported : Bool) : List Word → Sh (List String)
  | [] => return []
  | w :: ws => do
    let text ← expandAssignment r.output w
    let (name, value) := Variables.splitAssignment text
    if isLocal then hide name
    Sh.setVariable name (value.getD "") (isLocal || isExported)
    return text :: (← makeAssignments r isLocal isExported ws)

/-- Runs a simple command. -/
def runSimple (r : Runner) (line : Nat) (assignments words : List Word)
    (redirections : List (Redirection (Option Command))) (flags : Flags) : Sh Nat := do
  modify fun m => { m with line, outputStatus := 0 }
  let heading ← expandHeading r words
  let before ← get
  let isLocal := match heading with
    | none => false
    | some h => h.isSpecial ≠ some true
  let isExec := match heading with
    | some h => h.words.head? = some "exec" && h.isSpecial.isSome
    | none => false
  let isSpecial := heading.any fun h => h.isSpecial = some true
  if isLocal then modify fun m => { m with hidden := [] :: m.hidden }
  let targets ← redirections.mapM (Redirection.prepare r.output)
  let (kept, isMade) ← redirectAll r.output true [] targets
  modify fun m => { m with kept := kept :: m.kept }
  let status ←
    if !isMade then do
      modify fun m => { m with status := 2 }
      if isSpecial then throw .error else pure 2
    else do
      let exports := isExec && heading.any fun h => 1 < h.words.length
      let shown ← makeAssignments r isLocal exports assignments
      trace r kept (shown ++ ((heading.map fun h => h.before ++ h.words).getD []))
      match heading with
      | none => do pure (← get).outputStatus
      | some h =>
        let status ← runHeading r h flags
        modify fun m => { m with status }
        pure status
  if isExec then keepForGood
  unwindKept before.kept.length
  unwindHidden before.hidden.length
  return status

end JobConsole.Shell
