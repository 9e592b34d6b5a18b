import JobConsole.Programs.Cat
import JobConsole.Programs.Echo
import JobConsole.Programs.Head
import JobConsole.Programs.Printf
import JobConsole.Programs.Small
import JobConsole.Programs.Tr.Basic

/-! # Standard programs

The programs beside the shell, by their names.
-/

namespace JobConsole.Programs.Standard

open JobConsole.Host

def table : List (String × (Invocation → Act Nat)) :=
  [ ("cat", Cat.run), ("echo", Echo.run), ("false", fun _ => pure 1), ("head", Head.run),
    ("kill", Kill.run), ("mkdir", Mkdir.run), ("printf", Printf.run), ("pwd", Pwd.run),
    ("sleep", Sleep.run), ("tr", Tr.run), ("true", fun _ => pure 0) ]

/-- The program of a name; one without a program of its own does nothing. -/
def image (name : String) (i : Invocation) : Program :=
  match table.lookup name with
  | some run => (run i).toProgram
  | none => .exit 0

end JobConsole.Programs.Standard
