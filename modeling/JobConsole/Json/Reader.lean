import JobConsole.Json.Node

/-! # Reading typed values from documents

A reader takes a node to a typed value or to a fault. The first fault from left to right counts:
`malformed` where the text breaks off, `mismatched` where a whole value has the wrong type, a member
is missing or repeated, or a name is unknown. Lists and objects nested deeper than 127 levels are
malformed. A record reads from an object with its members in any order, or from an array with its
members in the declared order. Unknown members are skipped without looking at their values.

A value read out of a flattened object has been taken in whole before; it is read leniently, and all
its faults are mismatches.
-/

namespace JobConsole.Json

inductive Fault where
  | malformed
  | mismatched
  deriving DecidableEq, Repr

/-- Where a reader stands. -/
structure Reading where
  /-- How many more levels may be opened. -/
  room : Nat
  /-- Whether the value was taken in whole before. -/
  buffered : Bool

abbrev Reader (α : Type) := Reading → Node → Except Fault α

def maxDepth : Nat := 127

mutual

def Node.isWhole : Node → Bool
  | .cut => false
  | .array items => items.isWhole
  | .object entries => entries.isWhole
  | _ => true

def Items.isWhole : Items → Bool
  | .closed => true
  | .cut => false
  | .cons v r => v.isWhole && r.isWhole

def Entries.isWhole : Entries → Bool
  | .closed => true
  | .cut => false
  | .keyless _ => false
  | .cons _ v r => v.isWhole && r.isWhole

end

/-- The fault of finding this node where another type is wanted. -/
def Node.wrongType : Node → Fault
  | .cut => .malformed
  | .text none => .malformed
  | .number n => if n.value?.isNone then .malformed else .mismatched
  | _ => .mismatched

/-- Stands one level deeper. -/
def Reading.inside (c : Reading) : Except Fault Reading :=
  match c.room with
  | 0 => .error .malformed
  | n + 1 => .ok ⟨n, c.buffered⟩

def orFault {α : Type} (f : Fault) : Option α → Except Fault α
  | some a => .ok a
  | none => .error f

/-! ## Free values -/

mutual

def readJson (room : Nat) : Node → Except Fault Json
  | .null => .ok .null
  | .bool b => .ok (.bool b)
  | .number n => (orFault .malformed n.value?).map .number
  | .text s => (orFault .malformed s).map .text
  | .array items =>
    match room with
    | 0 => .error .malformed
    | r + 1 => (readItems r items).map .array
  | .object entries =>
    match room with
    | 0 => .error .malformed
    | r + 1 => (readEntries r .empty entries).map ofDict
  | .cut => .error .malformed

def readItems (room : Nat) : Items → Except Fault (List Json)
  | .closed => .ok []
  | .cut => .error .malformed
  | .cons v r =>
    match readJson room v with
    | .error f => .error f
    | .ok x => (readItems room r).map (x :: ·)

def readEntries (room : Nat) (d : Dict Json) : Entries → Except Fault (Dict Json)
  | .closed => .ok d
  | .cut => .error .malformed
  | .keyless _ => .error .malformed
  | .cons none _ _ => .error .malformed
  | .cons (some k) v r =>
    match readJson room v with
    | .error f => .error f
    | .ok x => readEntries room (d.insert k x) r

end

def json : Reader Json := fun c n => readJson c.room n

/-- An object with free members; of a repeated key the last value counts. -/
def dict : Reader (Dict Json)
  | c, .object entries => do readEntries (← c.inside).room .empty entries
  | _, n => .error n.wrongType

/-! ## Scalars -/

def string : Reader String
  | _, .text (some s) => .ok s
  | _, n => .error n.wrongType

def boolean : Reader Bool
  | _, .bool b => .ok b
  | _, n => .error n.wrongType

/-- An integer from `low` up to but excluding `high`. -/
def integer (low high : Int) : Reader Int
  | _, .number n =>
    match n.value? with
    | none => .error .malformed
    | some (.int i) => if low ≤ i ∧ i < high then .ok i else .error .mismatched
    | some (.double _) => .error .mismatched
  | _, n => .error n.wrongType

def unsigned (bits : Nat) : Reader Nat :=
  fun c n => (integer 0 (Nat.pow 2 bits : Nat) c n).map Int.toNat

def signed (bits : Nat) : Reader Int :=
  let half : Nat := Nat.pow 2 (bits - 1)
  integer (-(half : Int)) half

/-- Absent is written as null. -/
def optional {α : Type} (f : Reader α) : Reader (Option α)
  | _, .null => .ok none
  | c, n => (f c n).map some

/-- A text that stands for a value. -/
def parsed {α : Type} (f : String → Option α) : Reader α :=
  fun c n => do orFault .mismatched (f (← string c n))

/-! ## Lists and dictionaries -/

def readAll {α : Type} (f : Node → Except Fault α) : Items → Except Fault (List α)
  | .closed => .ok []
  | .cut => .error .malformed
  | .cons v r =>
    match f v with
    | .error e => .error e
    | .ok x => (readAll f r).map (x :: ·)

def list {α : Type} (f : Reader α) : Reader (List α)
  | c, .array items => do readAll (f (← c.inside)) items
  | _, n => .error n.wrongType

def readDict {α : Type} (f : Node → Except Fault α) (d : Dict α) :
    Entries → Except Fault (Dict α)
  | .closed => .ok d
  | .cut => .error .malformed
  | .keyless _ => .error .malformed
  | .cons none _ _ => .error .malformed
  | .cons (some k) v r =>
    match f v with
    | .error e => .error e
    | .ok x => readDict f (d.insert k x) r

def dictOf {α : Type} (f : Reader α) : Reader (Dict α)
  | c, .object entries => do readDict (f (← c.inside)) .empty entries
  | _, n => .error n.wrongType

/-! ## Names -/

/-- What may follow the name in the object spelling of a name: null, or leniently an empty object. -/
def readUnit (c : Reading) : Node → Except Fault Unit
  | .null => .ok ()
  | .object .closed => if c.buffered then .ok () else .error .mismatched
  | n => .error n.wrongType

/-- One of finitely many names, written as a text or as an object with the name as its only key. -/
def name {α : Type} (find : String → Option α) : Reader α
  | _, .text (some s) => orFault .mismatched (find s)
  | c, .object entries =>
    match c.inside with
    | .error f => .error f
    | .ok _ =>
      match entries with
      | .cons (some k) v r => do
        let x ← orFault .mismatched (find k)
        readUnit c v
        match r with
        | .closed => .ok x
        | _ => .error .malformed
      | .keyless v => .error v.wrongType
      | _ => .error .malformed
  | _, _ => .error .malformed

/-! ## Records -/

/-- A member of a record that is read into a draft of type `δ`. -/
structure Member (δ : Type) where
  name : String
  isFilled : δ → Bool
  read : Reading → Node → δ → Except Fault δ
  /-- Whether an array may end before this member. -/
  mayEnd : Bool

/-- A member held as an optional field of the draft. -/
def field {δ α : Type} (name : String) (f : Reader α) (get : δ → Option α)
    (set : δ → α → δ) : Member δ :=
  ⟨name, fun d => (get d).isSome, fun c n d => (f c n).map (set d), false⟩

def fieldOrDefault {δ α : Type} (name : String) (f : Reader α) (get : δ → Option α)
    (set : δ → α → δ) : Member δ :=
  { field name f get set with mayEnd := true }

def fillFromEntries {δ : Type} (ms : List (Member δ)) (c : Reading) (d : δ) :
    Entries → Except Fault δ
  | .closed => .ok d
  | .cut => .error .malformed
  | .keyless _ => .error .malformed
  | .cons none _ _ => .error .malformed
  | .cons (some k) v r =>
    match ms.find? (·.name = k) with
    | none => if v.isWhole then fillFromEntries ms c d r else .error .malformed
    | some m =>
      if m.isFilled d then .error .mismatched
      else
        match m.read c v d with
        | .error f => .error f
        | .ok d' => fillFromEntries ms c d' r

def fillFromItems {δ : Type} (c : Reading) (d : δ) :
    List (Member δ) → Items → Except Fault δ
  | [], .closed => .ok d
  | [], _ => .error .malformed
  | m :: ms, .closed => if m.mayEnd then fillFromItems c d ms .closed else .error .mismatched
  | _ :: _, .cut => .error .malformed
  | m :: ms, .cons v r =>
    match m.read c v d with
    | .error f => .error f
    | .ok d' => fillFromItems c d' ms r

/-- A record: its members are read into a draft, which `finish` completes or finds incomplete. -/
def record {δ α : Type} (ms : List (Member δ)) (start : δ) (finish : δ → Option α) : Reader α
  | c, .object entries => do
    let d ← fillFromEntries ms (← c.inside) start entries
    orFault .mismatched (finish d)
  | c, .array items => do
    let d ← fillFromItems (← c.inside) start ms items
    orFault .mismatched (finish d)
  | _, n => .error n.wrongType

/-! ## Flattened records -/

/-- Reads the members `ms` and takes in every other entry whole. -/
def fillAndCollect {δ : Type} (ms : List (Member δ)) (c : Reading) (d : δ)
    (others : List (String × Node)) : Entries → Except Fault (δ × List (String × Node))
  | .closed => .ok (d, others.reverse)
  | .cut => .error .malformed
  | .keyless _ => .error .malformed
  | .cons none _ _ => .error .malformed
  | .cons (some k) v r =>
    match ms.find? (·.name = k) with
    | none =>
      match readJson c.room v with
      | .error f => .error f
      | .ok _ => fillAndCollect ms c d ((k, v) :: others) r
    | some m =>
      if m.isFilled d then .error .mismatched
      else
        match m.read c v d with
        | .error f => .error f
        | .ok d' => fillAndCollect ms c d' others r

/-- Reads a record out of entries that were taken in whole. -/
def fromOthers {δ α : Type} (ms : List (Member δ)) (start : δ) (finish : δ → Option α)
    (others : List (String × Node)) : Except Fault α :=
  match fillFromEntries ms ⟨maxDepth, true⟩ start (.ofList others) with
  | .error _ => .error .mismatched
  | .ok d => orFault .mismatched (finish d)

/-- Reads a record out of items that were taken in whole. -/
def fromOtherItems {δ α : Type} (ms : List (Member δ)) (start : δ) (finish : δ → Option α)
    (items : Items) : Except Fault α :=
  match fillFromItems ⟨maxDepth, true⟩ start ms items with
  | .error _ => .error .mismatched
  | .ok d => orFault .mismatched (finish d)

/-- A record whose entries beyond `ms` make up a second one. It reads from objects only. -/
def flattened {δ β α : Type} (ms : List (Member δ)) (start : δ)
    (rest : List (String × Node) → Except Fault β) (finish : δ → β → Option α) : Reader α
  | c, .object entries => do
    let (d, others) ← fillAndCollect ms (← c.inside) start [] entries
    let b ← rest others
    orFault .mismatched (finish d b)
  | _, n => .error n.wrongType

/-! ## Whole texts -/

/-- Reads a text that holds one value and nothing else. -/
def decode {α : Type} (f : Reader α) (s : String) : Except Fault α :=
  let doc := document s
  match f ⟨maxDepth, false⟩ doc.root with
  | .error e => .error e
  | .ok x => if doc.ends then .ok x else .error .malformed

end JobConsole.Json
