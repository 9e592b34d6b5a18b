/-! # Options

The options among the arguments of a program, one letter or a long name each. A long name may be cut
short where that leaves no doubt. What is not an option is an operand, wherever it stands, and so is
everything behind a lone `--`.
-/

namespace JobConsole.Programs

/-- Whether an option goes with a value. -/
inductive Demand where
  | none
  | required
  deriving DecidableEq, Repr

structure OptionRule where
  letter : Char
  long : String
  demand : Demand
  deriving DecidableEq, Repr

structure Choices where
  /-- The letters of the options, with their values, in order. -/
  options : List (Char × String)
  operands : List String
  deriving DecidableEq, Repr

namespace Choices

def add (c : Choices) (letter : Char) (value : String) : Choices :=
  { c with options := (letter, value) :: c.options }

/-- The rules that a long name may mean. -/
def candidates (rules : List OptionRule) (name : String) : List OptionRule :=
  match rules.filter (·.long = name) with
  | [] => rules.filter fun r => r.long ≠ "" && r.long.startsWith name
  | exact => exact

/-- Reads the letters behind a dash; `none` is a letter that needs a value from the next argument. -/
def readLetters (rules : List OptionRule) (c : Choices) : List Char →
    Except String (Choices × Option Char)
  | [] => .ok (c, none)
  | x :: rest =>
    match rules.find? (·.letter = x) with
    | none => .error ("invalid option -- '" ++ String.ofList [x] ++ "'")
    | some ⟨_, _, .none⟩ => readLetters rules (c.add x "") rest
    | some ⟨_, _, .required⟩ =>
      if rest.isEmpty then .ok (c, some x) else .ok (c.add x (String.ofList rest), none)

/-- Reads a long name with what follows an equals sign. -/
def readLong (rules : List OptionRule) (c : Choices) (text : String) :
    Except String (Choices × Option (Char × String)) :=
  let cs := text.toList
  let name := String.ofList (cs.takeWhile (· ≠ '='))
  let value? := match cs.dropWhile (· ≠ '=') with
    | _ :: v => some (String.ofList v)
    | [] => none
  match candidates rules name with
  | [] => .error ("unrecognized option '--" ++ text ++ "'")
  | [⟨x, long, demand⟩] =>
    match demand, value? with
    | .none, none => .ok (c.add x "", none)
    | .none, some _ => .error ("option '--" ++ long ++ "' doesn't allow an argument")
    | .required, some v => .ok (c.add x v, none)
    | .required, none => .ok (c, some (x, long))
  | rs =>
    .error ("option '--" ++ text ++ "' is ambiguous; possibilities:" ++
      String.join (rs.map fun r => " '--" ++ r.long ++ "'"))

/-- Reads arguments. With `permutes` options may stand behind operands. -/
def readFrom (rules : List OptionRule) (permutes : Bool) (c : Choices) : List String →
    Except String Choices
  | [] => .ok c
  | a :: rest =>
    match a.toList with
    | ['-', '-'] => .ok { c with operands := c.operands ++ rest }
    | '-' :: '-' :: long =>
      match readLong rules c (String.ofList long) with
      | .error e => .error e
      | .ok (c', none) => readFrom rules permutes c' rest
      | .ok (c', some (x, name)) =>
        match rest with
        | v :: rest' => readFrom rules permutes (c'.add x v) rest'
        | [] => .error ("option '--" ++ name ++ "' requires an argument")
    | '-' :: x :: letters =>
      match readLetters rules c (x :: letters) with
      | .error e => .error e
      | .ok (c', none) => readFrom rules permutes c' rest
      | .ok (c', some y) =>
        match rest with
        | v :: rest' => readFrom rules permutes (c'.add y v) rest'
        | [] => .error ("option requires an argument -- '" ++ String.ofList [y] ++ "'")
    | _ =>
      let c' := { c with operands := c.operands ++ [a] }
      if permutes then readFrom rules permutes c' rest
      else .ok { c with operands := c.operands ++ a :: rest }

/-- The options and the operands among arguments, or what is wrong with them. -/
def ofArgs (rules : List OptionRule) (permutes : Bool) (args : List String) :
    Except String Choices :=
  (readFrom rules permutes ⟨[], []⟩ args).map fun c => { c with options := c.options.reverse }

def has (c : Choices) (letter : Char) : Bool := c.options.any (·.1 = letter)

end Choices

end JobConsole.Programs
