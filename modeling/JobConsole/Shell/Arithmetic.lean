import JobConsole.Shell.Syntax
import JobConsole.Text.Integer

/-! # Arithmetic

Expressions of integers of 64 bits, which wrap. They are worked out while they are read, so the first
thing that is wrong is the one that is told. A part whose value does not matter is only read: nothing
in it is assigned or divided.
-/

namespace JobConsole.Shell.Arithmetic

open JobConsole.Text

inductive Operator where
  | mul
  | div
  | rem
  | add
  | sub
  | shiftLeft
  | shiftRight
  | less
  | lessEq
  | greater
  | greaterEq
  | equal
  | unequal
  | bitAnd
  | bitXor
  | bitOr
  deriving DecidableEq, Repr

/-- Operators of a lower level bind their operands first. -/
def Operator.level : Operator → Nat
  | mul | div | rem => 0
  | add | sub => 1
  | shiftLeft | shiftRight => 2
  | less | lessEq | greater | greaterEq => 3
  | equal | unequal => 4
  | bitAnd => 5
  | bitXor => 6
  | bitOr => 7

/-- The level above all operators. -/
def topLevel : Nat := 8

inductive Token where
  | finish
  | number (n : Int)
  | name (s : String)
  | operator (o : Operator)
  /-- An assignment, with the operator that works out its value. -/
  | assign (o : Option Operator)
  | andAlso
  | orElse
  | bang
  | tilde
  | question
  | colon
  | openParen
  | closeParen
  /-- A character that begins nothing. -/
  | stray
  deriving DecidableEq, Repr

inductive Fault where
  | noPrimary
  | noEnd
  | noParen
  | noColon
  | divisionByZero
  | illegal (text : String)
  | readOnly (name : String)
  /-- A quotient that 64 bits do not hold. -/
  | overflow
  deriving DecidableEq, Repr

/-- What is said of a fault in an expression. -/
def Fault.message (expression : String) : Fault → String
  | noPrimary => said "expecting primary"
  | noEnd => said "expecting EOF"
  | noParen => said "expecting ')'"
  | noColon => said "expecting ':'"
  | divisionByZero => said "division by zero"
  | illegal s => "Illegal number: " ++ s
  | readOnly s => s ++ ": is read only"
  | overflow => "Floating point exception"
where
  said (s : String) : String := "arithmetic expression: " ++ s ++ ": \"" ++ expression ++ "\""

/-! ## Tokens -/

def twoSigns : List (String × Token) :=
  [ ("<<", .operator .shiftLeft), (">>", .operator .shiftRight), ("<=", .operator .lessEq),
    (">=", .operator .greaterEq), ("==", .operator .equal), ("!=", .operator .unequal),
    ("&&", .andAlso), ("||", .orElse), ("*=", .assign (some .mul)), ("/=", .assign (some .div)),
    ("%=", .assign (some .rem)), ("+=", .assign (some .add)), ("-=", .assign (some .sub)),
    ("&=", .assign (some .bitAnd)), ("^=", .assign (some .bitXor)), ("|=", .assign (some .bitOr)) ]

def oneSigns : List (Char × Token) :=
  [ ('*', .operator .mul), ('/', .operator .div), ('%', .operator .rem), ('+', .operator .add),
    ('-', .operator .sub), ('<', .operator .less), ('>', .operator .greater), ('=', .assign none),
    ('&', .operator .bitAnd), ('^', .operator .bitXor), ('|', .operator .bitOr), ('!', .bang),
    ('~', .tilde), ('?', .question), (':', .colon), ('(', .openParen), (')', .closeParen) ]

/-- The token made of signs at the front of a text, and how long it is. -/
def sign? (cs : List Char) : Option (Token × Nat) :=
  match String.ofList (cs.take 3) with
  | "<<=" => some (.assign (some .shiftLeft), 3)
  | ">>=" => some (.assign (some .shiftRight), 3)
  | _ =>
    match twoSigns.lookup (String.ofList (cs.take 2)) with
    | some t => some (t, 2)
    | none => cs.head?.bind fun c => (oneSigns.lookup c).map (·, 1)

/-- The token at the front of a text, and what is left. -/
def token (cs : List Char) : Token × List Char :=
  match cs.dropWhile fun c => c = ' ' || c = '\t' || c = '\n' with
  | [] => (.finish, [])
  | c :: r =>
    if c.isDigit then
      match Integer.natural? none (c :: r) with
      | some (n, rest) => (.number (Integer.clamp n), rest)
      | none => (.stray, r)
    else if isNameStart c then
      let name := leadingName (c :: r)
      (.name (String.ofList name), (c :: r).drop name.length)
    else
      match sign? (c :: r) with
      | some (t, n) => (t, (c :: r).drop n)
      | none => (.stray, r)

/-! ## Evaluation -/

/-- The variables that an expression sees. -/
structure Scope where
  value? : String → Option String
  isReadOnly : String → Bool

structure State where
  token : Token
  rest : List Char
  /-- What has been assigned, the last one first. -/
  assigned : List (String × Int)

abbrev Calculation := StateT State (Except Fault)

def advance : Calculation Unit := modify fun s =>
  let (t, rest) := token s.rest
  { s with token := t, rest }

def word (n : Int) : Int := n.bmod (Nat.pow 2 64)

def truth (p : Bool) : Int := if p then 1 else 0

/-- How far a shift goes. -/
def distance (n : Int) : Nat := (n % 64).toNat

def bits (n : Int) : BitVec 64 := BitVec.ofInt 64 n

def Operator.apply (o : Operator) (a b : Int) : Except Fault Int :=
  match o with
  | mul => .ok (word (a * b))
  | add => .ok (word (a + b))
  | sub => .ok (word (a - b))
  | div =>
    if b = 0 then .error .divisionByZero
    else if a = Integer.least ∧ b = -1 then .error .overflow
    else .ok (a.tdiv b)
  | rem =>
    if b = 0 then .error .divisionByZero
    else if a = Integer.least ∧ b = -1 then .error .overflow
    else .ok (a.tmod b)
  | shiftLeft => .ok (word (a * (Nat.pow 2 (distance b) : Nat)))
  | shiftRight => .ok (a / (Nat.pow 2 (distance b) : Nat))
  | less => .ok (truth (a < b))
  | lessEq => .ok (truth (a ≤ b))
  | greater => .ok (truth (b < a))
  | greaterEq => .ok (truth (b ≤ a))
  | equal => .ok (truth (a = b))
  | unequal => .ok (truth (a ≠ b))
  | bitAnd => .ok (bits a &&& bits b).toInt
  | bitXor => .ok (bits a ^^^ bits b).toInt
  | bitOr => .ok (bits a ||| bits b).toInt

/-- The number that the text of a variable stands for; an empty one is zero. -/
def valueOfText (s : String) : Except Fault Int :=
  let cs := s.toList
  match Integer.read? none cs with
  | none => if cs.all Integer.isBlank then .ok 0 else .error (.illegal s)
  | some (n, rest) =>
    if rest.all Integer.isBlank && Integer.fits n then .ok n else .error (.illegal s)

def lookUp (v : Scope) (name : String) : Calculation Int := do
  match (← get).assigned.lookup name with
  | some n => return n
  | none =>
    match valueOfText ((v.value? name).getD "") with
    | .ok n => return n
    | .error e => throw e

def store (v : Scope) (name : String) (n : Int) : Calculation Unit := do
  if v.isReadOnly name then throw (.readOnly name)
  modify fun s => { s with assigned := (name, n) :: s.assigned }

mutual

/-- Works out an expression that may be an assignment. Where `isIdle` nothing is done. -/
def assignment (v : Scope) : Nat → Bool → Calculation Int
  | 0, _ => throw .noPrimary
  | n + 1, isIdle => do
    let s ← get
    match s.token, token s.rest with
    | .name x, (.assign o, rest) =>
      set { s with rest }
      advance
      let b ← assignment v n isIdle
      if isIdle then return b
      else
        let value ← match o with
          | none => pure b
          | some o =>
            match o.apply (← lookUp v x) b with
            | .ok c => pure c
            | .error e => throw e
        store v x value
        return value
    | _, _ => choice v n isIdle

def choice (v : Scope) : Nat → Bool → Calculation Int
  | 0, _ => throw .noPrimary
  | n + 1, isIdle => do
    let a ← disjunction v n isIdle
    if (← get).token ≠ .question then return a
    else
      advance
      let b ← assignment v n (isIdle || a = 0)
      if (← get).token ≠ .colon then throw .noColon
      advance
      let c ← choice v n (isIdle || a ≠ 0)
      return if a ≠ 0 then b else c

def disjunction (v : Scope) : Nat → Bool → Calculation Int
  | 0, _ => throw .noPrimary
  | n + 1, isIdle => do
    let a ← conjunction v n isIdle
    if (← get).token ≠ .orElse then return a
    else
      advance
      let b ← disjunction v n (isIdle || a ≠ 0)
      return truth (a ≠ 0 || b ≠ 0)

def conjunction (v : Scope) : Nat → Bool → Calculation Int
  | 0, _ => throw .noPrimary
  | n + 1, isIdle => do
    let a ← primary v n isIdle
    let a ← operation v n isIdle topLevel a
    if (← get).token ≠ .andAlso then return a
    else
      advance
      let b ← conjunction v n (isIdle || a = 0)
      return truth (a ≠ 0 && b ≠ 0)

/-- Goes on with operators of levels below one, with what has been worked out to their left. -/
def operation (v : Scope) : Nat → Bool → Nat → Int → Calculation Int
  | 0, _, _, _ => throw .noPrimary
  | n + 1, isIdle, level, a => do
    match (← get).token with
    | .operator o =>
      if o.level < level then
        advance
        let b ← primary v n isIdle
        let b ← operation v n isIdle o.level b
        if isIdle then operation v n isIdle level b
        else
          match o.apply a b with
          | .ok c => operation v n isIdle level c
          | .error e => throw e
      else return a
    | _ => return a

def primary (v : Scope) : Nat → Bool → Calculation Int
  | 0, _ => throw .noPrimary
  | n + 1, isIdle => do
    match (← get).token with
    | .openParen =>
      advance
      let a ← assignment v n isIdle
      if (← get).token ≠ .closeParen then throw .noParen
      advance
      return a
    | .number a =>
      advance
      return a
    | .name x =>
      advance
      if isIdle then return 0 else lookUp v x
    | .operator .add =>
      advance
      primary v n isIdle
    | .operator .sub =>
      advance
      return word (-(← primary v n isIdle))
    | .bang =>
      advance
      return truth ((← primary v n isIdle) = 0)
    | .tilde =>
      advance
      return -(← primary v n isIdle) - 1
    | _ => throw .noPrimary

end

/-- The value of an expression and what it assigns, the first one first. -/
def evaluate (v : Scope) (expression : String) : Except Fault (Int × List (String × Int)) :=
  let (t, rest) := token expression.toList
  let depth := 8 * (expression.length + 2)
  let whole : Calculation Int := do
    let a ← assignment v depth false
    if (← get).token ≠ .finish then throw .noEnd
    return a
  (whole.run ⟨t, rest, []⟩).map fun (a, s) => (a, s.assigned.reverse)

end JobConsole.Shell.Arithmetic
