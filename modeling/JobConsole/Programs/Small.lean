import JobConsole.Files.Path
import JobConsole.Programs.Basic
import JobConsole.Programs.Options
import JobConsole.Host.Signal
import JobConsole.Text.Floating
import JobConsole.Text.Shielded

/-! # Small programs

Programs that tell or change one thing: where they are, how much time passes, which directories there
are, and which signals others get.
-/

namespace JobConsole.Programs

open JobConsole.Host

/-! ## Pwd -/

namespace Pwd

def rules : List OptionRule := [⟨'L', "logical", .none⟩, ⟨'P', "physical", .none⟩]

/-- Whether a path names the directory `l` without dots among its names. -/
def isNameOf (fs : FileSystem) (l : Location) (path : String) : Bool :=
  Path.isAbsolute path &&
    !(Path.pieces path).any (fun s => s = "." || s = "..") &&
    (match fs.find path with
      | .ok l' => l' = l
      | .error _ => false)

def ownPath (fs : FileSystem) : String := "/" ++ String.intercalate "/" fs.current

def run (i : Invocation) : Act Nat := do
  match Choices.ofArgs rules true i.args with
  | .error e => i.misuse e
  | .ok c =>
    if !c.operands.isEmpty then i.complain "ignoring non-option arguments"
    let fs ← Act.perform .files
    let logical := (c.options.getLast?.any (·.1 = 'L'))
    let named := (i.lookUp? "PWD").map Text.Octets.decode
    match if logical then named.filter (isNameOf fs fs.current) else none with
    | some p => i.conclude (Text.Octets.encode p ++ "\n") 0
    | none => i.conclude (Text.Octets.encode (ownPath fs) ++ "\n") 0

end Pwd

/-! ## Sleep -/

namespace Sleep

/-- The seconds that a unit stands for. -/
def unit? : List Char → Option Nat
  | [] | ['s'] => some 1
  | ['m'] => some 60
  | ['h'] => some 3600
  | ['d'] => some 86400
  | _ => none

/-- A time in microseconds, rounded up. A number that is not finite is longer than anything. -/
def time? (text : String) : Option Nat :=
  match Text.Floating.read? .extended text.toList with
  | none => none
  | some (x, _, rest) =>
    match unit? rest, x with
    | some u, .finite isNegative m power =>
      if isNegative && 0 < m then none
      else
        let (n, d) := Text.Floating.fraction m power
        some (min (Nat.pow 10 18) ((n * u * 1000000 + d - 1) / d))
    | some _, .infinite false => some (Nat.pow 10 18)
    | _, _ => none

def run (i : Invocation) : Act Nat := do
  match Choices.ofArgs [] true i.args with
  | .error e => i.misuse e
  | .ok c =>
    if c.operands.isEmpty then i.misuse "missing operand"
    else
      match c.operands.filter fun a => (time? a).isNone with
      | [] =>
        let _ ← Act.perform (.sleep ((c.operands.filterMap time?).foldl (· + ·) 0))
        return 0
      | wrong =>
        wrong.forM fun a =>
          i.complain ("invalid time interval " ++ Text.Shielded.named i.isUnicode a)
        i.advise
        return 1

end Sleep

/-! ## Mkdir -/

namespace Mkdir

def rules : List OptionRule :=
  [⟨'m', "mode", .required⟩, ⟨'p', "parents", .none⟩, ⟨'v', "verbose", .none⟩, ⟨'Z', "", .none⟩]

structure Settings where
  parents : Bool
  tells : Bool

/-- The path of each directory on the way to the one that a path names, the outermost first. A dot or
a double dot is a directory on the way too. -/
def way (path : String) : List String :=
  let pieces := (Path.pieces path).filter (· ≠ "")
  let front := if Path.isAbsolute path then "/" else ""
  (List.range' 1 (pieces.length - 1)).map fun n =>
    front ++ String.intercalate "/" (pieces.take n)

def quoted (i : Invocation) (path : String) : String :=
  Text.Shielded.forShell i.isUnicode true (fun _ => false) (Text.Octets.encode path)

def named (i : Invocation) (path : String) : String :=
  Text.Shielded.named i.isUnicode (Text.Octets.encode path)

/-- Makes a directory and tells of it. -/
def makeOne (i : Invocation) (s : Settings) (path : String) : Act (Except Fault Unit) := do
  match ← Act.perform (.makeDirectory path) with
  | .ok _ =>
    if s.tells then
      let _ ← put 1 (i.name ++ ": created directory " ++ quoted i path ++ "\n")
    return .ok ()
  | .error e => return .error e

/-- Makes the directories on the way that are missing; tells which path led nowhere. -/
def makeWay (i : Invocation) (s : Settings) : List String → Act (Option (String × Fault))
  | [] => pure none
  | p :: rest => do
    let fs ← Act.perform .files
    if fs.isDirectory p then makeWay i s rest
    else
      match ← makeOne i s p with
      | .ok _ => makeWay i s rest
      | .error e => return some (p, if e = .file .alreadyExists then .file .notDirectory else e)

def make (i : Invocation) (s : Settings) (path : String) : Act Nat := do
  let complain (p : String) (e : Fault) : Act Nat := do
    i.complain ("cannot create directory " ++ named i p ++ ": " ++ e.reason)
    return 1
  match ← if s.parents then makeWay i s (way path) else pure none with
  | some (p, e) => complain p e
  | none =>
    let fs ← Act.perform .files
    if s.parents && fs.isDirectory path then return 0
    else
      match ← makeOne i s path with
      | .ok _ => return 0
      | .error e => complain path e

def makeAll (i : Invocation) (s : Settings) : List String → Nat → Act Nat
  | [], status => pure status
  | p :: rest, status => do
    let code ← make i s (Text.Octets.decode p)
    makeAll i s rest (max status code)

/-- Whether a text is a mode: a number in octal digits, or clauses of letters. -/
def isMode (text : String) : Bool :=
  let cs := text.toList
  let isClause (c : List Char) : Bool :=
    let rest := c.dropWhile fun x => "ugoa".toList.contains x
    match rest with
    | op :: perms =>
      (op = '+' || op = '-' || op = '=') && perms.all fun x => "rwxXstugo+-=".toList.contains x
    | [] => false
  (!cs.isEmpty && cs.length ≤ 5 && cs.all fun c => Text.Integer.isDigitOf 8 c) ||
    (Path.splitAt ',' cs).all isClause

def run (i : Invocation) : Act Nat := do
  match Choices.ofArgs rules true i.args with
  | .error e => i.misuse e
  | .ok c =>
    if c.operands.isEmpty then i.misuse "missing operand"
    else
      match c.options.find? fun o => o.1 = 'm' && !isMode o.2 with
      | some o =>
        i.complain ("invalid mode " ++ Text.Shielded.named i.isUnicode o.2)
        return 1
      | none => makeAll i ⟨c.has 'p', c.has 'v'⟩ c.operands 0

end Mkdir

/-! ## Kill -/

namespace Kill

/-- The signal that a text names. -/
def signal? (text : String) : Option Nat :=
  let name := text.toUpper
  let name := if name.startsWith "SIG" then String.ofList (name.toList.drop 3) else name
  match Text.Integer.read? (some 10) text.toList with
  | some (n, []) => if 0 ≤ n && n ≤ Signal.last then some n.toNat else none
  | _ => Signal.all.find? fun n => Signal.name n = name

def usage : String :=
  "\nUsage:\n kill [options] <pid> [...]\n\nOptions:\n" ++
  " <pid> [...]            send signal to every <pid> listed\n" ++
  " -<signal>, -s, --signal <signal>\n" ++
  "                        specify the <signal> to be sent\n" ++
  " -q, --queue <value>    integer value to be sent with the signal\n" ++
  " -l, --list=[<signal>]  list all signal names, or convert one to a name\n" ++
  " -L, --table            list all signal names in a nice table\n\n" ++
  " -h, --help     display this help and exit\n" ++
  " -V, --version  output version information and exit\n\nFor more details see kill(1).\n"

/-- Sends a signal to processes by their numbers. -/
def send (i : Invocation) (signal : Nat) : List String → Nat → Act Nat
  | [], status => pure status
  | a :: rest, status => do
    match Text.Integer.read? (some 10) a.toList with
    | some (n, []) =>
      match ← Act.perform (.kill n.toNat signal) with
      | .ok _ => send i signal rest status
      | .error e =>
        i.complain ("(" ++ a ++ "): " ++ e.reason)
        send i signal rest 1
    | _ =>
      i.complain ("failed to parse argument: '" ++ a ++ "'")
      return 1

def describe (i : Invocation) (text : String) : Act Nat := do
  match Text.Integer.read? (some 10) text.toList, signal? text with
  | some (n, []), _ => i.conclude (Signal.name (n.toNat % 128) ++ "\n") 0
  | _, some n => i.conclude (toString n ++ "\n") 0
  | _, none =>
    i.complain ("unknown signal name " ++ text)
    return 1

def run (i : Invocation) : Act Nat := do
  match i.args with
  | [] =>
    let _ ← put 2 usage
    return 1
  | ["-l", a] => describe i a
  | "-s" :: a :: rest | "--signal" :: a :: rest =>
    send i ((signal? a).getD (Signal.last + 1)) rest 0
  | "--" :: rest => send i Signal.terminate rest 0
  | a :: rest =>
    match a.toList with
    | '-' :: cs =>
      match signal? (String.ofList cs) with
      | some n => send i n (if rest.head? = some "--" then rest.drop 1 else rest) 0
      | none =>
        i.complain ("invalid argument " ++ String.ofList (cs.take 1))
        let _ ← put 2 usage
        return 1
    | _ => send i Signal.terminate (a :: rest) 0

end Kill

end JobConsole.Programs
