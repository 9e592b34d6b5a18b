import JobConsole.Shell.Builtin.Control
import JobConsole.Shell.Builtin.Directory
import JobConsole.Shell.Builtin.Printing
import JobConsole.Shell.Builtin.Processes
import JobConsole.Shell.Builtin.Test
import JobConsole.Shell.Builtin.Variables

/-! # The builtin commands

Each builtin command by its name.
-/

namespace JobConsole.Shell.Builtin

def table : List (String × Builtin) :=
  [ (".", Control.source), (":", Control.success), ("[", Test.test), ("alias", Control.setAliases),
    ("bg", Processes.move), ("break", Control.leaveLoops .break), ("cd", Directory.cd),
    ("chdir", Directory.cd), ("command", Control.command),
    ("continue", Control.leaveLoops .continue), ("echo", Printing.echo), ("eval", Control.eval),
    ("exec", Control.exec), ("exit", Control.exit), ("export", Variables.export),
    ("false", Control.failure), ("fg", Processes.move), ("getopts", Variables.getopts),
    ("hash", Control.hash), ("jobs", Processes.jobs), ("kill", Processes.kill),
    ("local", Variables.local), ("printf", Printing.printf), ("pwd", Directory.pwd),
    ("read", Variables.read), ("readonly", Variables.readonly), ("return", Control.return),
    ("set", Variables.set), ("shift", Variables.shift), ("test", Test.test),
    ("times", Control.times), ("trap", Processes.trap), ("true", Control.success),
    ("type", Control.type), ("ulimit", Control.ulimit), ("umask", Control.umask),
    ("unalias", Control.unalias), ("unset", Variables.unset), ("wait", Processes.wait) ]

end JobConsole.Shell.Builtin
