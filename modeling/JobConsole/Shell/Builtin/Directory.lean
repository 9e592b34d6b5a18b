import JobConsole.Shell.Builtin.Basic

/-! # Directories

A shell knows its directory by the names that led to it, and goes up by dropping a name. It may also be
asked to look only at where it is.
-/

namespace JobConsole.Shell.Directory

open JobConsole.Host

/-- Whether the last of the options that differ asks for the directory's own names. -/
def isPhysical : List (Char × String) → Bool
  | [] => false
  | os => os.getLast?.any (·.1 = 'P')

/-- A path followed name by name from a directory, without a look at what is there. -/
def follow (start : List String) (path : String) : List String :=
  ((Path.pieces path).filter (· ≠ "")).foldl
    (fun names s => if s = ".." then names.dropLast else if s = "." then names else names ++ [s]) start

/-- What a path from a directory is called. Exactly two slashes in front of a path are kept. -/
def nameFrom (directory path : String) : String :=
  let isDouble (p : String) : Bool :=
    match p.toList with
    | '/' :: '/' :: '/' :: _ => false
    | '/' :: '/' :: _ => true
    | _ => false
  let base := if Path.isAbsolute path then path else directory
  let start := if Path.isAbsolute path then [] else (Path.pieces directory).filter (· ≠ "")
  (if isDouble base then "//" else "/") ++ String.intercalate "/" (follow start path)

/-- The directory by its own names. -/
def ownName (fs : FileSystem) : String :=
  Text.Octets.encode ("/" ++ String.intercalate "/" fs.current)

/-- Calls the directory by a name, and remembers what the last one was called. -/
def setDirectory (name : String) (remembers : Bool) : Sh Unit := do
  if remembers then Sh.setVariable "OLDPWD" (← get).directory true
  modify fun m => { m with directory := name }
  Sh.setVariable "PWD" name true

/-- Goes to a directory and tells whether that was possible. -/
def enter (physical : Bool) (path : String) : Sh Bool := do
  let m ← get
  let target := if physical then path else nameFrom m.directory path
  match ← Sh.call (.enter (Text.Octets.decode target)) with
  | .error _ => return false
  | .ok _ =>
    let name ← if physical then do pure (ownName (← Sh.files)) else pure target
    setDirectory name true
    return true

/-- Whether a path is looked for only where we are. -/
def isFixed (path : String) : Bool :=
  Path.isAbsolute path ||
    (match Path.pieces path with
      | first :: _ => first = "." || first = ".."
      | [] => false)

/-- The first directory of a search path in which a directory is found, and whether the search went
elsewhere. -/
def search? (fs : FileSystem) (path : Option String) (name : String) : Option (String × Bool) :=
  match path with
  | none => none
  | some p =>
    (searchPaths p name).findSome? fun candidate =>
      if fs.isDirectory (Text.Octets.decode candidate) then some (candidate, candidate ≠ name)
      else none

def cd : Builtin := fun _ u => do
  let (options, args) ← takeOptions [('L', false), ('P', false)] u.args
  let m ← get
  let goesBack := args.head? = some "-"
  let wanted := match args.head? with
    | none => (m.value? "HOME").getD ""
    | some "-" => (m.value? "OLDPWD").getD ""
    | some d => d
  let path := if wanted = "" then "." else wanted
  let fs ← Sh.files
  let found := if isFixed wanted then none else search? fs (m.value? "CDPATH") path
  let (target, isElsewhere) := found.getD (path, false)
  if ← enter (isPhysical options) target then
    if goesBack || isElsewhere then Sh.print ((← get).directory ++ "\n")
    return 0
  else Sh.fail ("can't cd to " ++ path)

def pwd : Builtin := fun _ u => do
  let (options, _) ← takeOptions [('L', false), ('P', false)] u.args
  if isPhysical options then Sh.print (ownName (← Sh.files) ++ "\n")
  else Sh.print ((← get).directory ++ "\n")
  return 0

end JobConsole.Shell.Directory
