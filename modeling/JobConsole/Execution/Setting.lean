import JobConsole.Files.System
import JobConsole.Registry.Basic

/-! # Setting of a process

What a job asks for is checked for NUL characters, its environment overlays the one of the server, and
its directory has to be there before its process can be started in it.
-/

namespace JobConsole.Execution

/-- The variables that a job inherits. -/
abbrev Ambient := List (String × String)

def nulMessage : String := "nul byte found in provided data"

def hasNul (s : String) : Bool := s.toList.contains '\x00'

def specHasNul (spec : LaunchSpec) : Bool :=
  spec.command.any hasNul || hasNul spec.cwd ||
    spec.env.entries.any fun e => hasNul e.1 || hasNul e.2

/-- The variables of the server, overlaid by those of the job. -/
def overlay (ambient : Ambient) (env : Dict String) : Ambient :=
  env.entries ++ ambient.filter fun v => (env.get? v.1).isNone

/-- The location of a directory. -/
def enter (fs : FileSystem) (cwd : String) : Except FileError Location :=
  match fs.find cwd with
  | .error e => .error e
  | .ok l => if fs.isDirectory cwd then .ok l else .error .notDirectory

end JobConsole.Execution
