import JobConsole.Programs.Standard
import JobConsole.Shell.Run

/-! # Starting a shell

A shell takes its variables from its environment, its options and parameters from its arguments, and its
script from an argument, a file or its input.
-/

namespace JobConsole.Shell

open JobConsole.Host

/-- The variables that every shell has at the start. -/
def firstVariables (parent : Nat) : List (String × String) :=
  [ ("PATH", "/usr/local/sbin:/usr/local/bin:/usr/sbin:/usr/bin:/sbin:/bin"), ("PS1", "# "),
    ("PS2", "> "), ("PS4", "+ "), ("PPID", toString parent) ]

/-- The variables that are what they are, whatever the environment says. -/
def fixedVariables : List (String × String) := [("IFS", Machine.standardSeparators), ("OPTIND", "1")]

namespace Machine

def start (i : Programs.Invocation) (number parent : Nat) : Machine :=
  let fresh : Machine :=
    { bindings := [], functions := [], aliases := [], documents := [], nextDocument := 1
      name := i.name, params := [], options := [], status := 0, outputStatus := 0
      savedStatus := none, traps := [], pending := [], deaf := [], settled := []
      skip := .nothing, loops := 0, line := 0, lineRead := 1, command := none, directory := "", jobs := []
      lastBackground := none, number, hidden := [], kept := [], hashed := [], optionPlace := (1, 0)
      mask := 18, isTracing := false, printed := "" }
  let put (isExported : Bool) (m : Machine) (v : String × String) : Machine :=
    if isName v.1 then m.assign v.1 v.2 isExported else m
  let m := (firstVariables parent).foldl (put false) fresh
  let m := i.environment.reverse.foldl (put true) m
  fixedVariables.foldl (put false) m

end Machine

/-- Takes the directory's name from the environment, if it is right. -/
def nameDirectory : Sh Unit := do
  let fs ← Sh.files
  let given := ((← get).value? "PWD").filter fun p =>
    Path.isAbsolute p && (match fs.find (Text.Octets.decode p) with
      | .ok l => l = fs.current
      | .error _ => false)
  let name := given.getD (Directory.ownName fs)
  modify fun m => { m with directory := name }
  Sh.setVariable "PWD" name true

/-- Tells what is wrong with a start. -/
def failStart {α : Type} (message : String) : Sh α := do
  modify fun m => { m with line := 0 }
  Sh.fail message

/-- Takes a name for the shell and parameters, where there are any. -/
def takeParams (args : List String) : Sh Unit :=
  match args with
  | [] => return ()
  | name :: params => modify fun m => { m with name, params }

/-- Runs the script that the arguments ask for. -/
def runFrom (r : Runner) (args : List String) : Sh Nat := do
  nameDirectory
  let (rest, hasCommand, _) ← Variables.setOptions true (args.length + 1) false args
  let input : Sh Nat := do
    let octets ← Sh.lift (Programs.drain 0)
    r.script (Text.Octets.ofBytes (octets.toOption.getD [])) .plain
  if hasCommand then
    match rest with
    | [] => failStart "-c requires an argument"
    | text :: rest =>
      takeParams rest
      let status ← r.script text .plain
      if (← get).has 's' then input else return status
  else
    match rest with
    | [] =>
      modify fun m => m.setOption 's' true
      input
    | path :: params =>
      if (← get).has 's' then
        modify fun m => { m with params := rest }
        input
      else
        let text ← Control.readScript path
        takeParams (path :: params)
        r.script text .plain

/-- The shell as a program. -/
def program (image : Programs.Image) (i : Programs.Invocation) : Program :=
  let r := runner image
  .call .identity fun (number, parent) => r.program (runFrom r i.args) (.start i number parent)

/-- All programs. The number bounds how deep shells can start shells. -/
def imageOf : Nat → Programs.Image
  | 0, _, _ => .exit 1
  | n + 1, name, i => if name = "sh" then program (imageOf n) i else Programs.Standard.image name i

end JobConsole.Shell
