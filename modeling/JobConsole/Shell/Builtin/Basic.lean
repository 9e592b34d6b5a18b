import JobConsole.Shell.Jobs

/-! # Builtin commands

Commands that a shell does by itself. Where a special one fails the shell ends, and what is assigned in
front of it stays. Some take assignments as arguments. A command that is regular is found without a look
at the path.
-/

namespace JobConsole.Shell

open JobConsole.Host

structure BuiltinKind where
  isSpecial : Bool
  takesAssignments : Bool
  deriving DecidableEq, Repr

namespace BuiltinKind

def ordinary : BuiltinKind := ⟨false, false⟩

def special : BuiltinKind := ⟨true, false⟩

def table : List (String × BuiltinKind) :=
  [ (".", special), (":", special), ("[", ordinary), ("alias", ⟨false, true⟩), ("bg", ordinary),
    ("break", special), ("cd", ordinary), ("chdir", ordinary), ("command", ordinary),
    ("continue", special), ("echo", ordinary), ("eval", special), ("exec", special),
    ("exit", special), ("export", ⟨true, true⟩), ("false", ordinary), ("fg", ordinary),
    ("getopts", ordinary), ("hash", ordinary), ("jobs", ordinary), ("kill", ordinary),
    ("local", ⟨true, true⟩), ("printf", ordinary), ("pwd", ordinary), ("read", ordinary),
    ("readonly", ⟨true, true⟩), ("return", special), ("set", special), ("shift", special),
    ("test", ordinary), ("times", special), ("trap", special), ("true", ordinary),
    ("type", ordinary), ("ulimit", ordinary), ("umask", ordinary), ("unalias", ordinary),
    ("unset", special), ("wait", ordinary) ]

end BuiltinKind

/-- How a builtin command is called. -/
structure Usage where
  name : String
  args : List String
  flags : Flags

/-- What a builtin command does; the result is its status. -/
abbrev Builtin := Runner → Usage → Sh Nat

/-! ## Options -/

/-- Reads the letters behind a dash: the options, and the one that needs a value from the next
argument. -/
def readLetters (rules : List (Char × Bool)) :
    List Char → Sh (List (Char × String) × Option Char)
  | [] => return ([], none)
  | c :: rest => do
    match rules.lookup c with
    | none => Sh.fail ("Illegal option -" ++ String.ofList [c])
    | some true =>
      if rest.isEmpty then return ([], some c) else return ([(c, String.ofList rest)], none)
    | some false =>
      let (options, missing) ← readLetters rules rest
      return ((c, "") :: options, missing)

/-- The options at the front of arguments, each with whether it has a value, and what is left. -/
def takeOptions (rules : List (Char × Bool)) :
    List String → Sh (List (Char × String) × List String)
  | [] => return ([], [])
  | a :: rest => do
    match a.toList with
    | ['-', '-'] => return ([], rest)
    | '-' :: c :: cs =>
      match ← readLetters rules (c :: cs) with
      | (options, none) =>
        let (more, rest) ← takeOptions rules rest
        return (options ++ more, rest)
      | (options, some x) =>
        match rest with
        | v :: rest =>
          let (more, rest) ← takeOptions rules rest
          return (options ++ (x, v) :: more, rest)
        | [] => Sh.fail ("No arg for -" ++ String.ofList [x] ++ " option")
    | _ => return ([], a :: rest)

/-- Arguments behind a mark that there are no options. -/
def withoutOptions (args : List String) : Sh (List String) := do
  let (_, rest) ← takeOptions [] args
  return rest

/-! ## Texts -/

/-- A stretch of quotes and what is behind it, or of other characters. -/
def quoteRuns : List Char → List (List Char)
  | [] => []
  | c :: r =>
    match quoteRuns r with
    | [] => [[c]]
    | run :: runs =>
      if (run.head? = some '\'') = (c = '\'') then (c :: run) :: runs else [c] :: run :: runs

/-- A text in quotation marks, so that it is read back as it is. -/
def quoteText (s : String) : String :=
  let runs := quoteRuns s.toList
  let runs := if (s.toList.headD '\'') = '\'' then [] :: runs else runs
  String.join (runs.map fun r =>
    let t := String.ofList r
    if r.head? = some '\'' then "\"" ++ t ++ "\"" else "'" ++ t ++ "'")

/-- The directories of a search path, and what is looked for in each. An empty one is where we are. -/
def searchPaths (path name : String) : List String :=
  (Path.splitAt ':' path.toList).map fun d =>
    if d.isEmpty then name else String.ofList d ++ "/" ++ name

def searchPath (m : Machine) : String := (m.value? "PATH").getD ""

/-- The name of a signal. The one that no system sends any more has only its number. -/
def signalName (n : Nat) : String := if n = Signal.stackFault then toString n else Signal.name n

/-- A number for the signal that a text names, be it by its number. -/
def signal? (least : Nat) (text : String) : Option Nat :=
  let cs := text.toList
  if !cs.isEmpty && cs.all Char.isDigit then
    let n := Text.Integer.valueOf 10 cs
    if n ≤ Signal.last then some n else none
  else
    let name := text.toUpper
    if least = 0 && name = "EXIT" then some 0
    else Signal.all.find? fun n => signalName n = name

end JobConsole.Shell
