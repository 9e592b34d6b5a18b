import JobConsole.Execution.Setting
import JobConsole.Execution.Step
import JobConsole.Shell.Start
import JobConsole.Host.Step

/-! # Launching

A job is launched in its setting, and with no input. Whatever is wrong is found in a fixed order: a NUL
character, then the directory, then the program. The shell, the programs and the processes that are
launched stand for what a console finds on its host. They are used here and where launched jobs are run,
and nothing that is proved rests on them.
-/

namespace JobConsole

namespace Host.Ending

/-- Signals that have a name of their own. -/
def signalNames : List (Nat × String) :=
  [ (1, "SIGHUP"), (2, "SIGINT"), (3, "SIGQUIT"), (6, "SIGABRT"), (9, "SIGKILL"),
    (11, "SIGSEGV"), (13, "SIGPIPE"), (14, "SIGALRM"), (15, "SIGTERM") ]

def signalName (n : Nat) : String := (signalNames.lookup n).getD ("SIG" ++ toString n)

def exit : Ending → Exit
  | code n => ⟨some n, none⟩
  | signal n => ⟨none, some (signalName n)⟩

end Host.Ending

namespace Execution

open JobConsole.Host

/-- Where programs are looked for if nothing is said. -/
def standardPath : String := "/bin:/usr/bin"

/-- The program that a command starts. -/
def programOf (fs : FileSystem) (path : Option String) (name : String) : Except FileError String :=
  let search (path : String) : Except FileError String :=
    match Shell.Control.findProgram fs (Text.Octets.encode path) (Text.Octets.encode name) with
    | .ok p => .ok p
    | .error (.file e) => .error e
    | .error _ => .error .missing
  if name = "" then .error .missing
  else if !name.toList.contains '/' && FileSystem.maxNameBytes < name.utf8ByteSize then
    .error .nameTooLong
  else search (path.getD standardPath)

/-- The programs that are installed. -/
def image : Programs.Image := Shell.imageOf Programs.endless

/-- Launches a job. The result is the number of its process, or why there is none. -/
def launch (w : World) (ambient : Ambient) (spec : LaunchSpec) : Except String (Nat × World) :=
  match spec.command with
  | [] => .error FileError.missing.message
  | name :: args =>
    if specHasNul spec then .error nulMessage
    else
      match enter w.files spec.cwd with
      | .error e => .error e.message
      | .ok l =>
        let bindings := overlay ambient spec.env
        match programOf { w.files with current := l } (bindings.lookup "PATH") name with
        | .error e => .error e.message
        | .ok p =>
          let encode := Text.Octets.encode
          let i : Programs.Invocation :=
            ⟨encode name, args.map encode, bindings.map fun v => (encode v.1, encode v.2)⟩
          .ok (w.launch l (image p i))

end Execution

end JobConsole
