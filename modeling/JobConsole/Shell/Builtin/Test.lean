import JobConsole.Shell.Builtin.Basic

/-! # Tests

Tests of texts, numbers and files, joined by operators. A word is an operator only where it can be one:
of three words the middle one decides, and an operator in front of nothing is a text.
-/

namespace JobConsole.Shell.Test

open JobConsole.Host

inductive Operator where
  | unary (c : Char)
  | binary (s : String)
  | bang
  | both
  | either
  | opening
  | closing
  deriving DecidableEq, Repr

def operator? (s : String) : Option Operator :=
  match s with
  | "!" => some .bang
  | "-a" => some .both
  | "-o" => some .either
  | "(" => some .opening
  | ")" => some .closing
  | "=" | "!=" | "<" | ">" | "-eq" | "-ne" | "-ge" | "-gt" | "-le" | "-lt" | "-nt" | "-ot" | "-ef" =>
    some (.binary s)
  | _ =>
    match s.toList with
    | ['-', c] => if "rwxefdcbpugkstznhLSOG".toList.contains c then some (.unary c) else none
    | _ => none

def isBinary (s : String) : Bool :=
  match operator? s with
  | some (.binary _) => true
  | _ => false

/-- Whether an operator of one operand stands for itself. -/
def isOperand : List String → Bool
  | _ :: _ :: [] => false
  | _ :: next :: _ => isBinary next
  | _ => true

/-- The operator at the front of words, where it can be one. -/
def lex (ws : List String) : Option Operator :=
  match ws with
  | [] => none
  | w :: rest =>
    match operator? w with
    | some (.unary c) => if isOperand ws then none else some (.unary c)
    | some .opening => if rest.isEmpty then none else some .opening
    | o => o

/-! ## Files -/

/-- Whether a file is there, and where. -/
def location? (fs : FileSystem) (path : String) : Option Location :=
  (fs.find (Text.Octets.decode path)).toOption

def entry? (fs : FileSystem) (path : String) : Option Entry :=
  (location? fs path).bind fs.entry?

/-- What a path names, be it a link. -/
def named? (fs : FileSystem) (path : String) : Option Entry :=
  match fs.place false (Text.Octets.decode path) with
  | .ok (.taken l) => fs.entry? l
  | _ => none

def isFile (fs : FileSystem) (c : Char) (path : String) : Bool :=
  let e := entry? fs path
  match c with
  | 'e' | 'r' | 'w' | 'O' | 'G' => e.isSome
  | 'f' => e.any fun e => match e with
      | .file _ | .command _ => true
      | _ => false
  | 'd' => e = some .directory
  | 'x' => e.any fun e => match e with
      | .directory | .command _ => true
      | _ => false
  | 'c' => e.any fun e => match e with
      | .device _ => true
      | _ => false
  | 's' => e.any fun e => match e with
      | .file os => !os.isEmpty
      | .device _ => false
      | _ => true
  | 'h' | 'L' => (named? fs path).any fun e => match e with
      | .link _ => true
      | _ => false
  | _ => false

/-- When a file was written last, in the order of all writing. -/
def age? (fs : FileSystem) (path : String) : Option Nat :=
  (location? fs path).bind fun l => fs.entries.findIdx? fun e => e.1 = l

/-! ## Values -/

/-- A number that fits into 64 bits. -/
def integer (s : String) : Sh Int := do
  match Text.Integer.read? (some 10) s.toList with
  | some (n, rest) =>
    if rest.all Text.Integer.isBlank && Text.Integer.fits n then return n
    else Sh.fail ("Illegal number: " ++ s)
  | none => Sh.fail ("Illegal number: " ++ s)

def unary (c : Char) (s : String) : Sh Bool := do
  match c with
  | 'z' => return s = ""
  | 'n' => return s ≠ ""
  | 't' =>
    let _ ← integer s
    return false
  | _ => return isFile (← Sh.files) c s

def compare (op a b : String) : Sh Bool := do
  let files (f : FileSystem → Bool) : Sh Bool := do return f (← Sh.files)
  let numbers (f : Int → Int → Bool) : Sh Bool := do
    let m ← integer a
    let n ← integer b
    return f m n
  match op with
  | "=" => return a = b
  | "!=" => return a ≠ b
  | "<" => return a < b
  | ">" => return b < a
  | "-eq" => numbers fun m n => m = n
  | "-ne" => numbers fun m n => m ≠ n
  | "-ge" => numbers fun m n => n ≤ m
  | "-gt" => numbers fun m n => n < m
  | "-le" => numbers fun m n => m ≤ n
  | "-lt" => numbers fun m n => m < n
  | "-nt" => files fun fs =>
      match age? fs a, age? fs b with
      | some m, some n => n < m
      | _, _ => false
  | "-ot" => files fun fs =>
      match age? fs a, age? fs b with
      | some m, some n => m < n
      | _, _ => false
  | _ => files fun fs =>
      match location? fs a, location? fs b with
      | some l, some k => l = k
      | _, _ => false

/-! ## Expressions -/

/-- What a test comes to, and the words from its last one on. -/
abbrev Result := Bool × List String

/-- Tests words from the front, of which the first is taken as the operator `o`. -/
structure Grammar where
  either : Option Operator → List String → Sh Result
  negated : Option Operator → List String → Sh Result

def primary (g : Grammar) (o : Option Operator) (ws : List String) : Sh Result := do
  match ws with
  | [] => return (false, [])
  | w :: rest =>
    match o with
    | some .opening =>
      match lex rest with
      | some .closing => return (false, rest)
      | o' =>
        let (b, ws) ← g.either o' rest
        let ws := ws.drop 1
        if lex ws = some .closing then return (b, ws)
        else Sh.fail "closing paren expected"
    | some (.unary c) =>
      match rest with
      | [] => Sh.fail (w ++ ": argument expected")
      | a :: _ => return (← unary c a, rest)
    | _ =>
      match lex rest with
      | some (.binary op) =>
        match rest with
        | _ :: b :: more => return (← compare op w b, b :: more)
        | _ => Sh.fail (op ++ ": argument expected")
      | _ => return (w ≠ "", ws)

mutual

/-- Tests joined by an operator that needs one of them. -/
def either : Nat → Option Operator → List String → Sh Result
  | 0, _, ws => return (false, ws)
  | n + 1, o, ws => do
    let (b, ws) ← both n o ws
    if lex (ws.drop 1) = some .either then
      let rest := ws.drop 2
      let (b', ws) ← either n (lex rest) rest
      return (b || b', ws)
    else return (b, ws)

def both : Nat → Option Operator → List String → Sh Result
  | 0, _, ws => return (false, ws)
  | n + 1, o, ws => do
    let (b, ws) ← negated n o ws
    if lex (ws.drop 1) = some .both then
      let rest := ws.drop 2
      let (b', ws) ← both n (lex rest) rest
      return (b && b', ws)
    else return (b, ws)

def negated : Nat → Option Operator → List String → Sh Result
  | 0, _, ws => return (false, ws)
  | n + 1, o, ws => do
    if o = some .bang then
      let rest := ws.drop 1
      let (b, ws) ← negated n (lex rest) (if rest.isEmpty then ws.drop 1 else rest)
      return (!b, ws)
    else primary ⟨either n, negated n⟩ o ws

end

/-- Tests all words. -/
def evaluate (words : List String) : Sh Bool := do
  let fuel := 4 * words.length + 4
  let (o, words) := match words with
    | [a, op, b] =>
      if isBinary op then (none, words)
      else if a = "(" && b = ")" then (lex [op], [op])
      else (lex words, words)
    | [a, x, y, b] =>
      if a = "(" && b = ")" then (lex [x, y], [x, y]) else (lex words, words)
    | ws => (lex ws, ws)
  let (b, ws) ← either fuel o words
  match ws with
  | w :: _ :: _ => Sh.fail (if w = "" then "unexpected operator" else w ++ ": unexpected operator")
  | _ => return b

def test : Builtin := fun _ u => do
  let args ←
    if u.name = "[" then
      if u.args.getLast? = some "]" then pure u.args.dropLast else Sh.fail "missing ]"
    else pure u.args
  if args.isEmpty then return 1
  else return if ← evaluate args then 0 else 1

end JobConsole.Shell.Test
