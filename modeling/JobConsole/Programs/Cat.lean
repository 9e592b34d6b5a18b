import JobConsole.Programs.Basic
import JobConsole.Programs.Options
import JobConsole.Text.Shielded

/-! # Cat

Copies its inputs to the output one after the other. Lines may be numbered, their ends marked, empty
ones kept only once in a row, and characters that cannot be seen written so that they can.
-/

namespace JobConsole.Programs.Cat

open JobConsole.Host

def rules : List OptionRule :=
  [ ⟨'A', "show-all", .none⟩, ⟨'b', "number-nonblank", .none⟩, ⟨'e', "", .none⟩,
    ⟨'E', "show-ends", .none⟩, ⟨'n', "number", .none⟩, ⟨'s', "squeeze-blank", .none⟩,
    ⟨'t', "", .none⟩, ⟨'T', "show-tabs", .none⟩, ⟨'u', "", .none⟩,
    ⟨'v', "show-nonprinting", .none⟩ ]

structure Settings where
  numbers : Bool
  onlyFilled : Bool
  squeezes : Bool
  ends : Bool
  tabs : Bool
  hidden : Bool
  deriving DecidableEq, Repr

def Settings.ofChoices (c : Choices) : Settings :=
  let any (letters : List Char) : Bool := letters.any c.has
  { numbers := any ['n', 'b'], onlyFilled := any ['b'], squeezes := any ['s']
    ends := any ['A', 'e', 'E'], tabs := any ['A', 't', 'T'], hidden := any ['A', 'e', 't', 'v'] }

def Settings.isPlain (s : Settings) : Bool :=
  !s.numbers && !s.squeezes && !s.ends && !s.tabs && !s.hidden

/-- Where copying stands. -/
structure State where
  /-- The number of the last line that was numbered. -/
  line : Nat
  /-- How many line ends were the last characters, up to two; at the start there is one. -/
  ends : Nat
  /-- Whether a carriage return waits for what follows it. -/
  heldReturn : Bool

/-- A character as it can be seen. -/
def visible (s : Settings) (b : Nat) : String :=
  let shown (n : Nat) : String := String.ofList [Char.ofNat n]
  if b = 9 then (if s.tabs then "^I" else shown 9)
  else if !s.hidden then shown b
  else
    let low (n : Nat) : String :=
      if n < 32 then "^" ++ shown (n + 64) else if n = 127 then "^?" else shown n
    if b < 128 then low b else "M-" ++ low (b - 128)

/-- A line number with the blanks around it. -/
def label (n : Nat) : String :=
  let digits := toString n
  String.ofList (List.replicate (6 - digits.length) ' ') ++ digits ++ "\t"

def held (st : State) : String := if st.heldReturn then "\r" else ""

/-- What is printed for one octet. -/
def step (s : Settings) (st : State) (b : Nat) : String × State :=
  if b = 10 then
    if s.squeezes && 2 ≤ st.ends then ("", st)
    else
      let isEmpty := 0 < st.ends
      let counts := s.numbers && isEmpty && !s.onlyFilled
      let front := if counts then label (st.line + 1) else ""
      let mark := if s.ends then (if st.heldReturn then "^M$" else "$") else held st
      (front ++ mark ++ "\n",
        ⟨if counts then st.line + 1 else st.line, min 2 (st.ends + 1), false⟩)
  else
    let counts := s.numbers && 0 < st.ends
    let front := held st ++ if counts then label (st.line + 1) else ""
    let line := if counts then st.line + 1 else st.line
    if b = 13 && s.ends && !s.hidden then (front, ⟨line, 0, true⟩)
    else (front ++ visible s b, ⟨line, 0, false⟩)

def render (s : Settings) (st : State) (os : List UInt8) : String × State :=
  let (pieces, st) := os.foldl
    (fun (out, st) b =>
      let (t, st') := step s st b.toNat
      (t :: out, st'))
    (([] : List String), st)
  (String.join pieces.reverse, st)

/-- How the copying of one input went. -/
inductive Outcome where
  | done
  | unread (e : Fault)
  | unwritten (e : Fault)

/-- Copies an input. -/
def copy (s : Settings) (descriptor : Nat) : Nat → State → Act (Outcome × State)
  | 0, st => pure (.done, st)
  | n + 1, st => do
    match ← Act.perform (.read descriptor blockSize) with
    | .error e => return (.unread e, st)
    | .ok [] => return (.done, st)
    | .ok os =>
      let written ←
        if s.isPlain then Act.perform (.write 1 os) else put 1 (render s st os).1
      let st := if s.isPlain then st else (render s st os).2
      match written with
      | .error e => return (.unwritten e, st)
      | .ok _ => copy s descriptor n st

/-- Whether what is read would be read again after it was written. -/
def isOutput (descriptor : Nat) : Act Bool := do
  match ← Act.perform (.locate descriptor), ← Act.perform (.locate 1) with
  | some (l, place, _), some (l', place', appends) =>
    if l ≠ l' then return false
    else
      let fs ← Act.perform .files
      let size := match fs.entry? l with
        | some (.file os) => os.length
        | _ => 0
      return decide (place < size) && (appends || decide (place < place'))
  | _, _ => return false

/-- Copies inputs by their names; a dash is the standard input. -/
def copyAll (i : Invocation) (s : Settings) : List String → State → Nat → Act Nat
  | [], st, status => do
    let _ ← put 1 (held st)
    return status
  | name :: rest, st, status => do
    let opened ←
      if name = "-" then pure (.ok 0)
      else Act.perform (.openFile (Text.Octets.decode name) .input)
    let shown := Text.Shielded.forShell i.isUnicode false (· = ':') name
    match opened with
    | .error e =>
      i.complain (shown ++ ": " ++ e.reason)
      copyAll i s rest st 1
    | .ok d =>
      if ← isOutput d then
        i.complain (shown ++ ": input file is output file")
        let _ ← Act.perform (.close d)
        copyAll i s rest st 1
      else
        let (outcome, st) ← copy s d endless st
        if name ≠ "-" then
          let _ ← Act.perform (.close d)
        match outcome with
        | .done => copyAll i s rest st status
        | .unread e =>
          i.complain (shown ++ ": " ++ e.reason)
          copyAll i s rest st 1
        | .unwritten e =>
          i.complain ("write error: " ++ e.reason)
          return 1

def run (i : Invocation) : Act Nat := do
  match Choices.ofArgs rules true i.args with
  | .error e => i.misuse e
  | .ok c =>
    let names := if c.operands.isEmpty then ["-"] else c.operands
    let status ← copyAll i (.ofChoices c) names ⟨0, 1, false⟩ 0
    i.closeInput names "closing standard input" status

end JobConsole.Programs.Cat
