import JobConsole.Programs.Basic
import JobConsole.Programs.Options
import JobConsole.Text.Shielded

/-! # Head

Prints the first part of its inputs: so many lines or octets, or all but the last ones. What was read of
a file beyond that part is left for others to read.
-/

namespace JobConsole.Programs.Head

open JobConsole.Host

def rules : List OptionRule :=
  [ ⟨'c', "bytes", .required⟩, ⟨'n', "lines", .required⟩, ⟨'q', "quiet", .none⟩,
    ⟨'q', "silent", .none⟩, ⟨'v', "verbose", .none⟩, ⟨'z', "zero-terminated", .none⟩ ]

inductive Headers where
  | some
  | always
  | never
  deriving DecidableEq, Repr

structure Settings where
  countsLines : Bool
  count : Nat
  /-- Whether the count is of what is left out at the end. -/
  isFromEnd : Bool
  terminator : UInt8
  headers : Headers
  deriving DecidableEq, Repr

def Settings.start : Settings := ⟨true, 10, false, 10, .some⟩

/-! ## Counts -/

/-- The factor of the letters behind a number. -/
def factor? (suffix : String) : Option Nat :=
  let powers := "KMGTPEZYRQ".toList.zipIdx
  let powerOf (c : Char) : Option Nat := (powers.find? (·.1 = c)).map (·.2 + 1)
  match suffix.toList with
  | [] => some 1
  | ['b'] => some 512
  | ['k'] => some 1024
  | ['m'] => some (1024 * 1024)
  | ['k', 'B'] => some 1000
  | [c] => (powerOf c).map (Nat.pow 1024)
  | [c, 'i', 'B'] => (powerOf (if c = 'k' then 'K' else c)).map (Nat.pow 1024)
  | [c, 'B'] => (powerOf c).map (Nat.pow 1000)
  | _ => none

/-- A count with its suffix, or the end of the message about it. -/
def readCount (text : String) : Except String Nat :=
  let cs := text.toList.dropWhile Text.Integer.isBlank
  let cs := match cs with
    | '+' :: r => r
    | r => r
  let ds := cs.takeWhile Char.isDigit
  let rest := String.ofList (cs.drop ds.length)
  let (n, suffix) :=
    if ds.isEmpty then (1, rest) else (Text.Integer.valueOf 10 ds, rest)
  if ds.isEmpty && (rest = "" || cs.length ≠ rest.length) then .error ""
  else
    match factor? suffix with
    | none => .error ""
    | some f =>
      if ds.isEmpty && suffix = "" then .error ""
      else if Nat.pow 2 64 ≤ n * f then .error ": Value too large for defined data type"
      else .ok (n * f)

/-- Sets the count from its text, with a dash in front if it is counted from the end. -/
def setCount (isUnicode countsLines : Bool) (s : Settings) (text : String) :
    Except String Settings :=
  let (isFromEnd, text) := match text.toList with
    | '-' :: r => (true, String.ofList r)
    | _ => (false, text)
  match readCount text with
  | .ok n => .ok { s with countsLines, count := n, isFromEnd }
  | .error e =>
    .error ("invalid number of " ++ (if countsLines then "lines" else "bytes") ++ ": " ++
      Text.Shielded.named isUnicode text ++ e)

def setOption (isUnicode : Bool) (s : Settings) : Char × String → Except String Settings
  | ('c', v) => setCount isUnicode false s v
  | ('n', v) => setCount isUnicode true s v
  | ('q', _) => .ok { s with headers := .never }
  | ('v', _) => .ok { s with headers := .always }
  | _ => .ok { s with terminator := 0 }

/-- A first argument that is a number behind a dash, with letters behind it. -/
def setShort (isUnicode : Bool) (s : Settings) (digits : List Char) :
    List Char → Except String Settings
  | letters =>
    let apply (r : Bool × String × Settings) (c : Char) : Except String (Bool × String × Settings) :=
      let (countsLines, suffix, s) := r
      match c with
      | 'c' => .ok (false, "", s)
      | 'b' => .ok (false, "b", s)
      | 'k' => .ok (false, "k", s)
      | 'm' => .ok (false, "m", s)
      | 'l' => .ok (true, suffix, s)
      | 'q' => .ok (countsLines, suffix, { s with headers := .never })
      | 'v' => .ok (countsLines, suffix, { s with headers := .always })
      | 'z' => .ok (countsLines, suffix, { s with terminator := 0 })
      | c => .error ("invalid trailing option -- " ++ String.ofList [c])
    match letters.foldlM apply (true, "", s) with
    | .error e => .error e
    | .ok (countsLines, suffix, s) =>
      match readCount (String.ofList digits ++ suffix) with
      | .ok n => .ok { s with countsLines, count := n, isFromEnd := false }
      | .error e =>
        .error ("invalid number of " ++ (if countsLines then "lines" else "bytes") ++ ": " ++
          Text.Shielded.named isUnicode (String.ofList digits ++ suffix) ++ e)

/-! ## Printing -/

/-- The first lines: how many are still to come, and how long they are together. -/
def takeLines (terminator : UInt8) : Nat → Nat → List UInt8 → Nat × Nat
  | 0, size, _ => (0, size)
  | n, size, [] => (n, size)
  | n + 1, size, b :: r =>
    if b = terminator then takeLines terminator n (size + 1) r
    else takeLines terminator (n + 1) (size + 1) r

/-- All but the last lines; a line without its end counts. -/
def dropLines (terminator : UInt8) (n : Nat) (os : List UInt8) : List UInt8 :=
  if n = 0 then os
  else
    let backwards := os.reverse
    let isOpen := os.getLast?.any (· ≠ terminator)
    let (_, size) := takeLines terminator (if isOpen then n else n + 1) 0 backwards
    let total := (os.filter (· = terminator)).length + if isOpen then 1 else 0
    if total ≤ n then []
    else os.take (os.length - if isOpen then size - 1 else size - 1)

def readSize : Nat := 8192

inductive Outcome where
  | done
  | unread (e : Fault)
  | unwritten (e : Fault)

/-- Prints the first part of an input while it is read. -/
def copyFront (s : Settings) (descriptor : Nat) : Nat → Nat → Act Outcome
  | 0, _ => pure .done
  | fuel + 1, n => do
    if n = 0 then return .done
    else
      match ← Act.perform (.read descriptor (if s.countsLines then readSize else min n readSize)) with
      | .error e => return .unread e
      | .ok [] => return .done
      | .ok os =>
        let (left, size) :=
          if s.countsLines then takeLines s.terminator n 0 os else (n - os.length, min n os.length)
        if size < os.length then Act.perform (.rewind descriptor (os.length - size))
        match ← Act.perform (.write 1 (os.take size)) with
        | .error e => return .unwritten e
        | .ok _ => copyFront s descriptor fuel left

/-- Prints all but the last part of an input. -/
def copyButEnd (s : Settings) (descriptor : Nat) : Act Outcome := do
  match ← drain descriptor with
  | .error e => return .unread e
  | .ok os =>
    let kept :=
      if s.countsLines then dropLines s.terminator s.count os else os.take (os.length - s.count)
    if kept.isEmpty then return .done
    else
      match ← Act.perform (.write 1 kept) with
      | .error e => return .unwritten e
      | .ok _ => return .done

def header (name : String) (isFirst : Bool) : String :=
  (if isFirst then "" else "\n") ++ "==> " ++ name ++ " <==\n"

/-- Prints inputs by their names; a dash is the standard input. -/
def printAll (i : Invocation) (s : Settings) (withHeaders : Bool) :
    List String → Bool → Nat → Act Nat
  | [], _, status => pure status
  | name :: rest, isFirst, status => do
    let opened ←
      if name = "-" then pure (.ok 0)
      else Act.perform (.openFile (Text.Octets.decode name) .input)
    let quoted (t : String) : String := Text.Shielded.forShell i.isUnicode true (fun _ => false) t
    let title := if name = "-" then "standard input" else name
    match opened with
    | .error e =>
      i.complain ("cannot open " ++ quoted title ++ " for reading: " ++ e.reason)
      printAll i s withHeaders rest isFirst 1
    | .ok d =>
      if withHeaders then
        let _ ← put 1 (header title isFirst)
      let outcome ← if s.isFromEnd then copyButEnd s d else copyFront s d endless s.count
      if name ≠ "-" then
        let _ ← Act.perform (.close d)
      match outcome with
      | .done => printAll i s withHeaders rest false status
      | .unread e =>
        i.complain ("error reading " ++ quoted title ++ ": " ++ e.reason)
        printAll i s withHeaders rest false 1
      | .unwritten e =>
        i.complain ("error writing " ++ quoted "standard output" ++ ": " ++ e.reason)
        return 1

def start (i : Invocation) : Except (Bool × String) (Settings × List String) :=
  let (short, args) := match i.args with
    | a :: rest =>
      match a.toList with
      | '-' :: c :: r =>
        if c.isDigit then
          let ds := (c :: r).takeWhile Char.isDigit
          (setShort i.isUnicode .start ds ((c :: r).drop ds.length), rest)
        else (.ok .start, i.args)
      | _ => (.ok .start, i.args)
    | [] => (.ok .start, [])
  match short with
  | .error e => .error (e.startsWith "invalid trailing", e)
  | .ok s =>
    match Choices.ofArgs rules true args with
    | .error e => .error (true, e)
    | .ok c =>
      match c.options.foldlM (setOption i.isUnicode) s with
      | .error e => .error (false, e)
      | .ok s => .ok (s, c.operands)

def run (i : Invocation) : Act Nat := do
  match start i with
  | .error (advises, e) =>
    if advises then i.misuse e
    else
      i.complain e
      return 1
  | .ok (s, operands) =>
    let names := if operands.isEmpty then ["-"] else operands
    let withHeaders := s.headers = .always || (s.headers = .some && 1 < names.length)
    let status ← printAll i s withHeaders names true 0
    i.closeInput names "-" status

end JobConsole.Programs.Head
