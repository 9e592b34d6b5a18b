import JobConsole.Shell.Builtin.Basic

/-! # Variables and parameters

Variables get their properties and lose them; parameters are set, shifted, and looked through for
options; lines are read into variables.
-/

namespace JobConsole.Shell.Variables

open JobConsole.Host

/-! ## Properties -/

/-- The variables that have a property, by name. -/
def listing (m : Machine) (p : Variable → Bool) : List (String × Variable) :=
  (m.bindings.filter fun x => p x.2).mergeSort fun a b => decide (a.1 ≤ b.1)

def declaration (front : String) (x : String × Variable) : String :=
  let value := match x.2.value with
    | some v => "=" ++ quoteText v
    | none => ""
  (if front = "" then "" else front ++ " ") ++ x.1 ++ value ++ "\n"

/-- What is in front of the first equals sign, and what is behind it. -/
def splitAssignment (s : String) : String × Option String :=
  let cs := s.toList
  match cs.dropWhile (· ≠ '=') with
  | _ :: value => (String.ofList (cs.takeWhile (· ≠ '=')), some (String.ofList value))
  | [] => (s, none)

/-- Gives a variable a property, and a value if there is one. -/
def mark (property : Variable → Variable) (argument : String) : Sh Unit := do
  let (name, value) := splitAssignment argument
  let m ← get
  match value, m.lookUp? name with
  | none, some v => set (m.putVariable name (property v))
  | _, v? =>
    if !isName name then
      Sh.fail (String.ofList (name.toList.takeWhile (· ≠ '=')) ++ ": bad variable name")
    else
      match value with
      | some x => Sh.setVariable name x false
      | none => set (m.putVariable name (v?.getD ⟨none, m.has 'a', false⟩))
      modify fun m =>
        match m.lookUp? name with
        | some v => m.putVariable name (property v)
        | none => m

/-- Shows the variables that have a property, or gives it to some. -/
def change (has : Variable → Bool) (property : Variable → Variable) : Builtin := fun _ u => do
  let (options, args) ← takeOptions [('p', false)] u.args
  if options.isEmpty && !args.isEmpty then args.forM (mark property)
  else
    let m ← get
    Sh.print (String.join ((listing m has).map (declaration u.name)))
  return 0

def «export» : Builtin := change (·.isExported) fun v => { v with isExported := true }

def readonly : Builtin := change (·.isReadOnly) fun v => { v with isReadOnly := true }

/-- Makes a variable seen only until the function ends. It keeps its value if it gets no other. -/
def localOne (argument : String) : Sh Unit := do
  let (name, value) := splitAssignment argument
  if argument = "-" then hide "-"
  else if !isName name then Sh.fail (name ++ ": bad variable name")
  else
    hide name
    match value with
    | some v => Sh.setVariable name v false
    | none => return ()

def «local» : Builtin := fun _ u => do
  if (← get).hidden.isEmpty then Sh.fail "not in a function"
  else
    u.args.forM localOne
    return 0

def unset : Builtin := fun _ u => do
  let (options, args) ← takeOptions [('v', false), ('f', false)] u.args
  let functions := options.getLast?.any (·.1 = 'f')
  for name in args do
    if functions then modify fun m => { m with functions := m.functions.filter (·.1 ≠ name) }
    else Sh.unsetVariable name
  return 0

/-! ## Options and parameters -/

def setParams (params : List String) : Sh Unit :=
  modify fun m => { m with params, optionPlace := (1, 0) }

/-- The options with their state, in words or as commands. -/
def optionListing (m : Machine) (inWords : Bool) : String :=
  let isOn (letter : Option Char) : Bool := letter.any m.has
  if inWords then
    "Current option settings\n" ++ String.join (optionTable.map fun (name, letter) =>
      name ++ String.ofList (List.replicate (16 - name.length) ' ') ++
        (if isOn letter then "on" else "off") ++ "\n")
  else
    String.join (optionTable.map fun (name, letter) =>
      "set " ++ (if isOn letter then "-o " else "+o ") ++ name ++ "\n")

/-- Turns an option on or off. Without a terminal there is no job control. -/
def setOption (letter : Char) (isOn : Bool) : Sh Unit := do
  if isOn && letter = 'm' then Sh.warn "can't access tty; job control turned off"
  else if optionTable.any fun o => o.2 = some letter then
    modify fun m =>
      let m := m.setOption letter isOn
      if isOn && letter = 'V' then m.setOption 'E' false
      else if isOn && letter = 'E' then m.setOption 'V' false
      else m
  else Sh.fail ("Illegal option -" ++ String.ofList [letter])

/-- Turns the option of a name on or off; without a name all are shown. -/
def setNamed (name : Option String) (isOn : Bool) : Sh Unit := do
  match name with
  | none => Sh.print (optionListing (← get) isOn)
  | some n =>
    match optionTable.lookup n with
    | none => Sh.fail ("Illegal option -o " ++ n)
    | some none => return ()
    | some (some letter) => setOption letter isOn

/-- What the letters of one argument have come to. -/
structure Letters where
  rest : List String
  /-- Whether a command comes as an argument. -/
  hasCommand : Bool

/-- Sets the options of the letters behind a sign. -/
def setLetters (atStart isOn : Bool) (l : Letters) : List Char → Sh Letters
  | [] => return l
  | c :: cs => do
    if c = 'c' && atStart then setLetters atStart isOn { l with hasCommand := true } cs
    else if c = 'l' && atStart then setLetters atStart isOn l cs
    else if c = 'o' then
      setNamed l.rest.head? isOn
      setLetters atStart isOn { l with rest := l.rest.drop 1 } cs
    else
      setOption c isOn
      setLetters atStart isOn l cs

/-- Sets options while they come. The result tells what is left, whether a command comes, and whether
options were said to end. -/
def setOptions (atStart : Bool) : Nat → Bool → List String → Sh (List String × Bool × Bool)
  | 0, hasCommand, args => return (args, hasCommand, false)
  | _ + 1, hasCommand, [] => return ([], hasCommand, false)
  | n + 1, hasCommand, a :: rest => do
    match a.toList with
    | ['-'] =>
      if !atStart then modify fun m => (m.setOption 'x' false).setOption 'v' false
      return (rest, hasCommand, false)
    | ['-', '-'] => return (rest, hasCommand, true)
    | sign :: letters =>
      if sign = '-' || sign = '+' then
        let l ← setLetters atStart (sign = '-') ⟨rest, hasCommand⟩ letters
        setOptions atStart n l.hasCommand l.rest
      else return (a :: rest, hasCommand, false)
    | [] => return (a :: rest, hasCommand, false)

def set : Builtin := fun _ u => do
  if u.args.isEmpty then
    Sh.print (String.join ((listing (← get) (·.value.isSome)).map (declaration "")))
  else
    let (args, _, isEnded) ← setOptions false (u.args.length + 1) false u.args
    if !args.isEmpty || isEnded then setParams args
  return 0

def shift : Builtin := fun _ u => do
  let n ← match u.args with
    | [] => pure 1
    | a :: _ => Sh.number a
  let m ← get
  if m.params.length < n then Sh.fail "can't shift that many"
  else
    setParams (m.params.drop n)
    return 0

/-! ## Getopts -/

/-- Whether a letter is an option, and whether it goes with a value. -/
def findLetter (c : Char) : List Char → Option Bool
  | [] => none
  | x :: ':' :: r => if x = c then some true else findLetter c r
  | x :: r => if x = c then some false else findLetter c r

/-- What a look for the next option finds. -/
structure FoundOption where
  letter : Char
  value : Option String
  /-- What is said of it. -/
  message : String
  /-- The next argument, and how many of its letters are done. -/
  place : Nat × Nat
  isOver : Bool

/-- Looks for the next option among arguments. -/
def nextOption (letters : List Char) (args : List String) (place : Nat × Nat) : FoundOption :=
  let (index, done) := place
  let isQuiet := letters.head? = some ':'
  let current := (args[index - 2]?).getD ""
  let within :=
    if index ≤ 1 || done = 0 || current.length < done then [] else current.toList.drop done
  let found : Nat × List Char :=
    if !within.isEmpty then (index, within)
    else
      match ((args[index - 1]?).getD "").toList with
      | ['-', '-'] => (index + 1, [])
      | '-' :: c :: cs => (index + 1, c :: cs)
      | _ => (index, [])
  match found with
  | (index, []) => ⟨'?', none, "", (index, 0), true⟩
  | (index, c :: rest) =>
    let word := (args[index - 2]?).getD ""
    let place := if rest.isEmpty then (index, word.length) else (index, word.length - rest.length)
    let text := String.ofList [c]
    match findLetter c letters with
    | none =>
      if isQuiet then ⟨'?', some text, "", place, false⟩
      else ⟨'?', none, "Illegal option -" ++ text ++ "\n", place, false⟩
    | some false => ⟨c, some "", "", place, false⟩
    | some true =>
      if !rest.isEmpty then ⟨c, some (String.ofList rest), "", (index, 0), false⟩
      else
        match args[index - 1]? with
        | some v => ⟨c, some v, "", (index + 1, 0), false⟩
        | none =>
          if isQuiet then ⟨':', some text, "", place, false⟩
          else ⟨'?', none, "No arg for -" ++ text ++ " option\n", place, false⟩

def getopts : Builtin := fun _ u => do
  match u.args with
  | letters :: name :: rest =>
    let m ← get
    let args := if rest.isEmpty then m.params else rest
    let place := if args.length + 1 < m.optionPlace.1 then (1, 0) else m.optionPlace
    let o := nextOption letters.toList args place
    if o.message ≠ "" then
      let _ ← Sh.write 2 o.message
    if !o.isOver then
      match o.value with
      | some v => Sh.setVariable "OPTARG" v false
      | none => Sh.unsetVariable "OPTARG"
    Sh.setVariable "OPTIND" (toString o.place.1) false
    let _ ← attempt (Sh.setVariable name (String.ofList [o.letter]) false)
    modify fun m => { m with optionPlace := o.place }
    return if o.isOver then 1 else 0
  | _ => Sh.fail "Usage: getopts optstring var [arg...]"

/-! ## Read -/

/-- A character of a line, and whether a backslash stood in front of it. -/
abbrev LineChar := Char × Bool

/-- Reads a line of the input octet by octet. A backslash keeps the next character from having a
meaning, unless `raw`. The result tells whether the line came to its end. -/
def readLine (raw : Bool) : Nat → Bool → List LineChar → Sh (List LineChar × Bool)
  | 0, _, cs => return (cs.reverse, false)
  | n + 1, isEscaped, cs => do
    match ← Sh.call (.read 0 1) with
    | .ok [b] =>
      let c := Char.ofNat b.toNat
      if c = '\x00' then readLine raw n isEscaped cs
      else if isEscaped then
        if c = '\n' then readLine raw n false cs else readLine raw n false ((c, true) :: cs)
      else if c = '\\' && !raw then readLine raw n true cs
      else if c = '\n' then return (cs.reverse, true)
      else readLine raw n false ((c, false) :: cs)
    | _ => return (cs.reverse, false)

structure Splitting where
  fields : List (List Char)
  /-- The field that is being made, backwards. -/
  current : List Char
  /-- Whether blanks that separate come together with what is next. -/
  inBlanks : Bool
  /-- How many fields there may be; of the last one nothing is cut off but its end. -/
  left : Nat
  /-- How long the last field is, if what follows in it is left out. -/
  cutAt : Option Nat

/-- Takes the next character of a line into account. -/
def splitStep (separators : List Char) (s : Splitting) (x : LineChar) : Splitting :=
  let (c, isEscaped) := x
  let isSeparator := !isEscaped && separators.contains c
  let isBlank := isSeparator && Fields.isStandard c
  if isEscaped then { s with current := c :: s.current, inBlanks := false }
  else if s.left = 0 then
    let kept := { s with current := c :: s.current }
    if isBlank then { kept with cutAt := some (s.cutAt.getD s.current.length) }
    else
      { kept with
        cutAt := if isSeparator && s.inBlanks then s.cutAt else none
        inBlanks := false }
  else if s.inBlanks && isBlank then s
  else if s.inBlanks && isSeparator then { s with inBlanks := false }
  else if isSeparator then
    if s.current.isEmpty && isBlank then { s with inBlanks := false }
    else if s.left = 1 then
      { s with
        current := c :: s.current, left := 0, inBlanks := isBlank
        cutAt := some s.current.length }
    else
      { s with
        fields := s.current.reverse :: s.fields, current := [], left := s.left - 1
        inBlanks := isBlank }
  else { s with current := c :: s.current, inBlanks := false }

/-- At most so many fields of a line. -/
def fieldsOf (separators : String) (count : Nat) (line : List LineChar) : List String :=
  let s := line.foldl (splitStep separators.toList) ⟨[], [], false, count, none⟩
  let last := match s.cutAt with
    | some n => s.current.reverse.take n
    | none => s.current.reverse
  ((if last.isEmpty then s.fields else last :: s.fields).reverse).map String.ofList

/-- Gives each variable its field, and an empty text where there is none. -/
def assignAll : List String → List String → Sh Unit
  | [], _ => return ()
  | name :: names, fields => do
    Sh.setVariable name (fields.headD "") false
    assignAll names (fields.drop 1)

def read : Builtin := fun _ u => do
  let (options, names) ← takeOptions [('p', true), ('r', false)] u.args
  if names.isEmpty then Sh.fail "arg count"
  else
    let (line, isWhole) ← readLine (options.any (·.1 = 'r')) Programs.endless false []
    assignAll names (fieldsOf (separators (← get)) names.length line)
    return if isWhole then 0 else 1

end JobConsole.Shell.Variables
