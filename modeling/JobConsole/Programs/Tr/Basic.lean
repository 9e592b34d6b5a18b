import JobConsole.Programs.Basic
import JobConsole.Programs.Options
import JobConsole.Programs.Tr.Set

/-! # Tr

Replaces, deletes and squeezes octets. An octet of the first set is replaced by the one at its place in
the second set, whose last octet is repeated as often as is needed. Small letters and capitals as
classes are replaced by one another.
-/

namespace JobConsole.Programs.Tr

open JobConsole.Host

def rules : List OptionRule :=
  [ ⟨'c', "complement", .none⟩, ⟨'C', "", .none⟩, ⟨'d', "delete", .none⟩,
    ⟨'s', "squeeze-repeats", .none⟩, ⟨'t', "truncate-set1", .none⟩ ]

/-- What is done to each octet: it is deleted, or replaced and then squeezed. -/
structure Work where
  deletes : Char → Bool
  replace : Char → Char
  squeezes : Char → Bool

/-- A part of a set that has not been gone through: its members, and whether they are the whole of a
class of small or of capital letters. -/
structure Run where
  members : List Char
  case? : Option String
  isWhole : Bool

def runsOf (es : List Element) : List Run :=
  es.filterMap fun e =>
    match e with
    | .class "lower" => some ⟨e.members, some "lower", true⟩
    | .class "upper" => some ⟨e.members, some "upper", true⟩
    | e => if e.members.isEmpty then none else some ⟨e.members, none, true⟩

/-- The runs without their first octet. -/
def advance : List Run → List Run
  | [] => []
  | r :: rest =>
    match r.members with
    | _ :: m :: ms => { r with members := m :: ms, isWhole := false } :: rest
    | _ => rest

/-- Whether each class of letters in the second set meets one in the first set. -/
def isAligned : Nat → List Run → List Run → Bool
  | n + 1, xs, y :: ys =>
    if y.case?.isSome then
      match xs with
      | x :: xs' => x.case?.isSome && x.isWhole && isAligned n xs' ys
      | [] => false
    else xs.isEmpty || isAligned n (advance xs) (advance (y :: ys))
  | _, _, _ => true

/-- How many classes of letters meet. -/
def caseCount (es : List Element) : Nat := (es.filter Element.isCase).length

/-- The octets that are replaced, with those that replace them. A later pair counts. -/
def pairs : Nat → List Run → List Run → List (Char × Char)
  | n + 1, x :: xs, y :: ys =>
    match x.case?, y.case? with
    | some a, some b =>
      let ps :=
        if a = b then (x.members.zip y.members).take 1
        else x.members.map fun c => (c, if a = "lower" then c.toUpper else c.toLower)
      ps ++ pairs n xs ys
    | _, _ =>
      match x.members, y.members with
      | c :: _, d :: _ => (c, d) :: pairs n (advance (x :: xs)) (advance (y :: ys))
      | _, _ => []
  | _, _, _ => []

def replacement (ps : List (Char × Char)) (c : Char) : Char := (ps.reverse.lookup c).getD c

/-- The second set with its open element as long as the first set asks for. -/
def close (size : Nat) (es : List Element) : List Element :=
  let missing := size - sizeOf es
  es.map fun e =>
    match e with
    | .repeated c none => .repeated c (some missing)
    | e => e

/-- The second set with its last octet repeated. -/
def extend (missing : Nat) (es : List Element) : Except String (List Element) :=
  match es.getLast? with
  | none => .error "when not truncating set1, string2 must be non-empty"
  | some (.class _) =>
    .error ("when translating with string1 longer than string2,\n" ++
      "the latter string must not end with a character class")
  | some e =>
    match e, e.members.getLast? with
    | .repeated c _, _ => .ok (es ++ [.repeated c (some missing)])
    | _, some c => .ok (es ++ [.repeated c (some missing)])
    | _, none => .ok es

/-- How octets of the first set are replaced by those of the second one. -/
def translation (complements truncates : Bool) (es fs : List Element) :
    Except String ((Char → Char) × List Element) := do
  let first := if complements then complement (membersOf es) else []
  let size := if complements then first.length else sizeOf es
  let isOpen := fs.any Element.isOpen
  if 1 < (fs.filter Element.isOpen).length then
    throw "only one [c*] repeat construct may appear in string2"
  let closed := isOpen && sizeOf fs ≤ size
  let fs := if closed then close size fs else fs
  if fs.any (fun e => match e with
      | .equivalent _ => true
      | _ => false) then
    throw "[=c=] expressions may not appear in string2 when translating"
  if fs.any (fun e => e.isClass && !e.isCase) then
    throw ("when translating, the only character classes that may appear in\n" ++
      "string2 are 'upper' and 'lower'")
  let fuel := size + sizeOf fs + 1
  let converts := !complements && fs.any Element.isClass
  if converts && !isAligned fuel (runsOf es) (runsOf fs) then
    throw "misaligned [:upper:] and/or [:lower:] construct"
  let fs ← if sizeOf fs < size && !truncates then extend (size - sizeOf fs) fs else pure fs
  if complements && es.any Element.isClass &&
      !(sizeOf fs = size && ((membersOf fs).eraseDups).length ≤ 1) then
    throw ("when translating with complemented character classes,\n" ++
      "string2 must map all characters in the domain to one")
  if complements then return (replacement (first.zip (membersOf fs)), fs)
  else return (replacement (pairs fuel (runsOf es) (runsOf fs)), fs)

/-- What the sets and options ask for. -/
def plan (c : Choices) (first : List Element) (second : Option (List Element)) :
    Except String Work := do
  let complements := c.has 'c' || c.has 'C'
  let deletes := c.has 'd'
  let squeezes := c.has 's'
  if first.any Element.isOpen then
    throw "the [c*] repeat construct may not appear in string1"
  let members := if complements then complement (membersOf first) else membersOf first
  match second with
  | none =>
    if deletes then return ⟨members.contains, id, fun _ => false⟩
    else return ⟨fun _ => false, id, members.contains⟩
  | some fs =>
    if deletes then
      if fs.any Element.isOpen then
        throw "the [c*] construct may appear in string2 only when translating"
      return ⟨members.contains, id, (membersOf fs).contains⟩
    else
      let (replace, fs) ← translation complements (c.has 't') first fs
      let kept := membersOf fs
      return ⟨fun _ => false, replace, fun x => squeezes && kept.contains x⟩

/-! ## Filtering -/

/-- Each octet as a number, so that filtering is a look at a table. -/
structure Table where
  deletes : Array Bool
  replace : Array UInt8
  squeezes : Array Bool

def Work.table (w : Work) : Table :=
  let all := octetRange 0 255
  ⟨(all.map w.deletes).toArray, (all.map fun c => (w.replace c).toNat.toUInt8).toArray,
    (all.map w.squeezes).toArray⟩

/-- Filters octets behind the last one that was printed. -/
def filter (t : Table) (last : Option UInt8) (os : List UInt8) : List UInt8 × Option UInt8 :=
  let (out, last) := os.foldl
    (fun (out, last) b =>
      if (t.deletes[b.toNat]?).getD false then (out, last)
      else
        let b := (t.replace[b.toNat]?).getD b
        if last = some b && (t.squeezes[b.toNat]?).getD false then (out, last)
        else (b :: out, some b))
    (([] : List UInt8), last)
  (out.reverse, last)

def copy (i : Invocation) (t : Table) : Nat → Option UInt8 → Act Nat
  | 0, _ => pure 0
  | n + 1, last => do
    match ← Act.perform (.read 0 blockSize) with
    | .error e =>
      i.complain ("read error: " ++ e.reason)
      return 1
    | .ok [] => return 0
    | .ok os =>
      let (out, last) := filter t last os
      let written ← if out.isEmpty then pure (.ok ()) else Act.perform (.write 1 out)
      match written with
      | .error e =>
        i.complain ("write error: " ++ e.reason)
        return 1
      | .ok _ => copy i t n last

/-- Warns of a backslash at the end of a set. -/
def warnOf (i : Invocation) (text : String) : Act Unit := do
  let backslashes := (text.toList.reverse.takeWhile (· = '\\')).length
  if backslashes % 2 = 1 then
    i.complain "warning: an unescaped backslash at end of string is not portable"

def start (i : Invocation) (c : Choices) : Act Nat := do
  let deletes := c.has 'd'
  let squeezes := c.has 's'
  let least := if deletes = squeezes then 2 else 1
  let most := if deletes && !squeezes then 1 else 2
  let count := c.operands.length
  if count < least then
    match c.operands.getLast? with
    | none => i.complain "missing operand"
    | some a =>
      i.complain ("missing operand after " ++ Text.Shielded.named i.isUnicode a)
      let _ ← put 2 (if squeezes then
        "Two strings must be given when both deleting and squeezing repeats.\n"
        else "Two strings must be given when translating.\n")
    i.advise
    return 1
  else if most < count then
    i.complain ("extra operand " ++ Text.Shielded.named i.isUnicode (c.operands[most]?.getD ""))
    if count = 2 then
      let _ ← put 2 "Only one string may be given when deleting without squeezing repeats.\n"
    i.advise
    return 1
  else
    c.operands.forM (warnOf i)
    match c.operands.mapM (readSet i.isUnicode) with
    | .error e =>
      i.complain e
      return 1
    | .ok sets =>
      match plan c (sets.headD []) (sets[1]?) with
      | .error e =>
        i.complain e
        return 1
      | .ok w => copy i w.table endless none

def run (i : Invocation) : Act Nat := do
  match Choices.ofArgs rules false i.args with
  | .error e => i.misuse e
  | .ok c => start i c

end JobConsole.Programs.Tr
