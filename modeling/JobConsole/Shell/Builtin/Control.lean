import JobConsole.Shell.Builtin.Basic
import JobConsole.Text.Layout

/-! # Control

Commands that change how the script goes on, or that run others; and what is known of the names of
commands.
-/

namespace JobConsole.Shell.Control

open JobConsole.Host

/-! ## Leaving -/

/-- Leaves loops, or goes on with their next round. -/
def leaveLoops (skip : Nat → Skip) : Builtin := fun _ u => do
  let n ← match u.args with
    | [] => pure 1
    | a :: _ => do
      let n ← Sh.number a
      if n = 0 then Sh.fail ("Illegal number: " ++ a) else pure n
  let loops := (← get).loops
  if 0 < loops then modify fun m => { m with skip := skip (min n loops) }
  return 0

def exit : Builtin := fun _ u => do
  match u.args with
  | a :: _ =>
    let n ← Sh.number a
    modify fun m => { m with savedStatus := some n }
  | [] => pure ()
  let m ← get
  set { m with status := m.savedStatus.getD m.status }
  throw .exit

def «return» : Builtin := fun _ u => do
  match u.args with
  | a :: _ =>
    let n ← Sh.number a
    modify fun m => { m with skip := .function true }
    return n
  | [] =>
    modify fun m => { m with skip := .function false }
    return (← get).status

/-! ## Running others -/

def eval : Builtin := fun r u => do
  if u.args.isEmpty then return 0
  else r.script (String.intercalate " " u.args) u.flags.inner

/-- The file that a name stands for in a script. -/
def findFile (name : String) : Sh String := do
  if name.toList.contains '/' then return name
  else
    let fs ← Sh.files
    let isFile (p : String) : Bool := (fs.readFile (Text.Octets.decode p)).isSome
    match (searchPaths (searchPath (← get)) name).find? isFile with
    | some p => return p
    | none => Sh.fail (name ++ ": not found")

/-- The text of a file that is read as a script. -/
def readScript (path : String) : Sh String := do
  let d ← Redirection.openPath path .input
  let octets ← Sh.lift (Programs.drain d)
  let _ ← Sh.call (.close d)
  return Text.Octets.ofBytes (octets.toOption.getD [])

def source : Builtin := fun r u => do
  match ← withoutOptions u.args with
  | [] => return 0
  | name :: _ =>
    let path ← findFile name
    let text ← readScript path
    modify fun m => { m with command := some path }
    let status ← r.script text .plain
    modify fun m => match m.skip with
      | .function _ => { m with skip := .nothing }
      | _ => m
    return status

/-! ## Programs -/

/-- What there is at a path that is to be run. -/
def programAt (fs : FileSystem) (path : String) : Except Fault String :=
  match fs.stat (Text.Octets.decode path) with
  | .ok (.command name) => .ok name
  | .ok _ => .error (.file .permission)
  | .error e => .error (.file e)

/-- The first program of a name in the directories of a path; a cause that counts more than absence
stays. -/
def searchProgram (fs : FileSystem) (path name : String) : Except Fault String :=
  (searchPaths path name).foldl
    (fun found p =>
      match found with
      | .ok x => .ok x
      | .error e =>
        match programAt fs p with
        | .ok x => .ok x
        | .error e' => .error (if e'.isAbsence then e else e'))
    (.error (.file .missing))

def findProgram (fs : FileSystem) (path name : String) : Except Fault String :=
  if name.toList.contains '/' then programAt fs name else searchProgram fs path name

/-- Goes on as a program, or tells why that is not possible. -/
def become (r : Runner) (path : String) (words : List String) : Sh Nat := do
  let name := words.headD ""
  match findProgram (← Sh.files) path name with
  | .ok program =>
    let m ← get
    Sh.call .replace
    Sh.become (r.image program ⟨name, words.drop 1, m.environment⟩)
  | .error e =>
    let isLost := e.isAbsence || e = .file .nameTooLong || e = .file .tooManyLinks
    modify fun m => { m with status := if isLost then 127 else 126 }
    Sh.warn (name ++ ": " ++ (if e.isAbsence then "not found" else e.reason))
    Sh.finish

def exec : Builtin := fun r u => do
  let args ← withoutOptions u.args
  if args.isEmpty then return 0
  else become r (searchPath (← get)) args

/-! ## Names of commands -/

/-- Where a name stands in a listing that has so many sections. -/
def nameRank (sections : Nat) (name : String) : Nat :=
  let cs := name.toList.map Char.toNat
  (16 * cs.headD 0 + cs.foldl (· + ·) 0) % sections

/-- The program of a name in the directories of a path. A name with a slash is a path, and stands for
whatever is there. -/
def findExecutable? (fs : FileSystem) (path name : String) : Option String :=
  if name.toList.contains '/' then
    match fs.stat (Text.Octets.decode name) with
    | .ok _ => some name
    | .error _ => none
  else
    (searchPaths path name).find? fun p =>
      match programAt fs p with
      | .ok _ => true
      | .error _ => false

/-- Says what a name means as a command: in a sentence, or so that it can be used. -/
def describe (path : Option String) (inWords : Bool) (name : String) : Sh Nat := do
  let m ← get
  let say (sentence short : String) : Sh Nat := do
    Sh.print ((if inWords then name ++ sentence else short) ++ "\n")
    return 0
  if (Keyword.table.lookup name).isSome then say " is a shell keyword" name
  else
    match m.aliases.lookup name with
    | some value => say (" is an alias for " ++ value) ("alias " ++ name ++ "=" ++ quoteText value)
    | none =>
      if path.isNone && (m.functions.lookup name).isSome then say " is a shell function" name
      else
        match BuiltinKind.table.lookup name with
        | some kind =>
          say (if kind.isSpecial then " is a special shell builtin" else " is a shell builtin") name
        | none =>
          match findExecutable? (← Sh.files) (path.getD (searchPath m)) name with
          | some p =>
            let isTracked := path.isNone && m.hashed.contains name && !name.toList.contains '/'
            if path.isNone then modify (·.remember name)
            say ((if isTracked then " is a tracked alias for " else " is ") ++ p) p
          | none =>
            if inWords then Sh.print (name ++ ": not found\n")
            return 127

def describeAll : List String → Nat → Sh Nat
  | [], status => return status
  | a :: rest, status => do
    let code ← describe none true a
    describeAll rest (status ||| code)

def type : Builtin := fun _ u => do describeAll (← withoutOptions u.args) 0

/-- Where programs are looked for that all systems have. -/
def standardPath : String := "/usr/sbin:/usr/bin:/sbin:/bin"

/-- Says what a name means. Other commands behind it are run by whoever runs commands. -/
def command : Builtin := fun _ u => do
  let (options, args) ← takeOptions [('p', false), ('v', false), ('V', false)] u.args
  let path := if options.any (·.1 = 'p') then some standardPath else none
  match args with
  | name :: _ =>
    if options.any (·.1 = 'V') then describe path true name
    else if options.any (·.1 = 'v') then describe path false name
    else return 0
  | [] => return 0

def hash : Builtin := fun _ u => do
  let (options, args) ← takeOptions [('r', false)] u.args
  let m ← get
  if options.any (·.1 = 'r') then
    set { m with hashed := [] }
    return 0
  else if args.isEmpty then
    let fs ← Sh.files
    let names := m.hashed.mergeSort fun a b => decide (nameRank 31 a ≤ nameRank 31 b)
    Sh.print (String.join (names.filterMap fun n =>
      (findExecutable? fs (searchPath m) n).map (· ++ "\n")))
    return 0
  else
    let fs ← Sh.files
    let codes ← args.mapM fun name => do
      if (BuiltinKind.table.lookup name).isSome || (m.functions.lookup name).isSome then return 0
      else
        match findExecutable? fs (searchPath m) name with
        | some _ =>
          modify fun m => { m with hashed := m.hashed.filter (· ≠ name) }
          modify (·.remember name)
          return 0
        | none =>
          Sh.warn (name ++ ": not found")
          return 1
    return codes.foldl max 0

/-! ## Aliases -/

def aliasText (name value : String) : String := name ++ "=" ++ quoteText value ++ "\n"

def aliasOne (argument : String) : Sh Nat := do
  let cs := argument.toList
  let name := String.ofList (cs.take 1 ++ (cs.drop 1).takeWhile (· ≠ '='))
  match (cs.drop 1).dropWhile (· ≠ '=') with
  | _ :: value =>
    let value := String.ofList value
    modify fun m =>
      if (m.aliases.lookup name).isSome then
        { m with aliases := m.aliases.map fun a => if a.1 = name then (name, value) else a }
      else { m with aliases := m.aliases ++ [(name, value)] }
    return 0
  | [] =>
    match (← get).aliases.lookup argument with
    | some value =>
      Sh.print (aliasText argument value)
      return 0
    | none =>
      let _ ← Sh.write 2 ("alias: " ++ argument ++ " not found\n")
      return 1

def setAliases : Builtin := fun _ u => do
  if u.args.isEmpty then
    let all := (← get).aliases.mergeSort fun a b => decide (nameRank 39 a.1 ≤ nameRank 39 b.1)
    Sh.print (String.join (all.map fun a => aliasText a.1 a.2))
    return 0
  else
    let codes ← u.args.mapM aliasOne
    return codes.foldl max 0

def unalias : Builtin := fun _ u => do
  let (options, args) ← takeOptions [('a', false)] u.args
  if !options.isEmpty then
    modify fun m => { m with aliases := [] }
    return 0
  else
    let codes ← args.mapM fun name => do
      if ((← get).aliases.lookup name).isSome then
        modify fun m => { m with aliases := m.aliases.filter (·.1 ≠ name) }
        return 0
      else
        let _ ← Sh.write 2 ("unalias: " ++ name ++ " not found\n")
        return 1
    return codes.foldl max 0

/-! ## Small ones -/

def success : Builtin := fun _ _ => return 0

def failure : Builtin := fun _ _ => return 1

def times : Builtin := fun _ _ => do
  Sh.print "0m0.000000s 0m0.000000s\n0m0.000000s 0m0.000000s\n"
  return 0

/-- The permissions that new files get, for the owner, the group and others. -/
def maskText (mask : Nat) : String :=
  let part (who : String) (shift : Nat) : String :=
    let bits := 7 - (mask / Nat.pow 8 shift) % 8
    who ++ "=" ++ (if bits / 4 % 2 = 1 then "r" else "") ++ (if bits / 2 % 2 = 1 then "w" else "") ++
      (if bits % 2 = 1 then "x" else "")
  part "u" 2 ++ "," ++ part "g" 1 ++ "," ++ part "o" 0

/-- The permissions after a clause that names who gets or loses which. -/
def applyClause (permissions : Nat) (clause : List Char) : Option Nat :=
  let who := clause.takeWhile fun c => "ugoa".toList.contains c
  let all := who.isEmpty || who.contains 'a'
  let places := [('u', 2), ('g', 1), ('o', 0)].filter fun p => all || who.contains p.1
  match clause.drop who.length with
  | op :: rest =>
    if rest.all fun c => "rwx".toList.contains c then
      let bits := (if rest.contains 'r' then 4 else 0) + (if rest.contains 'w' then 2 else 0) +
        (if rest.contains 'x' then 1 else 0)
      let change (n : Nat) (shift : Nat) : Nat :=
        let now := (n / Nat.pow 8 shift) % 8
        let new := match op with
          | '+' => now ||| bits
          | '-' => now - (now &&& bits)
          | _ => bits
        n - now * Nat.pow 8 shift + new * Nat.pow 8 shift
      if "+-=".toList.contains op then some ((places.map (·.2)).foldl change permissions) else none
    else none
  | [] => none

def umask : Builtin := fun _ u => do
  let (options, args) ← takeOptions [('S', false)] u.args
  match args with
  | [] =>
    let m ← get
    let digits := String.ofList (Nat.toDigits 8 m.mask)
    if options.isEmpty then Sh.print (Text.Floating.zeros (4 - digits.length) ++ digits ++ "\n")
    else Sh.print (maskText m.mask ++ "\n")
    return 0
  | a :: _ =>
    if a.toList.headD ' ' |>.isDigit then
      if a.all (Text.Integer.isDigitOf 8) then
        modify fun m => { m with mask := Text.Integer.valueOf 8 a.toList % 512 }
        return 0
      else Sh.fail ("Illegal number: " ++ a)
    else
      let mask := (← get).mask
      match (Path.splitAt ',' a.toList).foldlM applyClause (511 - mask) with
      | some permissions =>
        modify fun m => { m with mask := 511 - permissions }
        return 0
      | none => Sh.fail ("Illegal mode: " ++ a)

/-- No resource is limited. -/
def ulimit : Builtin := fun _ u => do
  let _ ← takeOptions ("HSatfdscmlpnvwr".toList.map fun c => (c, false)) u.args
  Sh.print "unlimited\n"
  return 0

end JobConsole.Shell.Control
