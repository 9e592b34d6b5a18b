import JobConsole.Json.Token

/-! # Documents as far as they are well formed

A document is read into a tree even when its text breaks off: what was read before the break stands
in the tree, and the break itself is the node, or the end of a list, called `cut`. Whoever reads the
tree from left to right therefore meets a wrong value and a break in the order of the text.
-/

namespace JobConsole.Json

mutual

inductive Node where
  | null
  | bool (b : Bool)
  | number (n : Numeral)
  | text (s : Option String)
  | array (items : Items)
  | object (entries : Entries)
  | cut

inductive Items where
  | closed
  | cut
  | cons (item : Node) (rest : Items)

inductive Entries where
  | closed
  | cut
  /-- A value stands where the first key should. -/
  | keyless (value : Node)
  | cons (key : Option String) (value : Node) (rest : Entries)

end

instance : Inhabited Node := ⟨.cut⟩

namespace Items

/-- Puts items, latest first, in front. -/
def pushAll (r : Items) : List Node → Items
  | [] => r
  | v :: vs => pushAll (.cons v r) vs

end Items

namespace Entries

/-- Puts entries, latest first, in front. -/
def pushAll (r : Entries) : List (Option String × Node) → Entries
  | [] => r
  | (k, v) :: es => pushAll (.cons k v r) es

def ofList : List (String × Node) → Entries
  | [] => .closed
  | (k, v) :: r => .cons (some k) v (ofList r)

end Entries

/-- A list that is open around the place being read; its members are held latest first. -/
inductive Frame where
  | array (items : List Node)
  | object (entries : List (Option String × Node)) (key : Option String)

/-- What the place being read calls for. -/
inductive Place where
  | value
  | firstItem
  | firstKey
  | key (entries : List (Option String × Node))
  | colon (entries : List (Option String × Node)) (key : Option String)
  | after (value : Node)

/-- The value that a token is by itself. -/
def scalar? : Token → Option Node
  | .null => some .null
  | .bool b => some (.bool b)
  | .number n => some (.number n)
  | .text s => some (.text s)
  | _ => none

/-- How a value starts with a token, inside the open lists `fs`. -/
def begin? (fs : List Frame) : Token → Option (List Frame × Place)
  | .beginArray => some (fs, .firstItem)
  | .beginObject => some (fs, .firstKey)
  | t => (scalar? t).map fun v => (fs, .after v)

/-- How reading goes on with a token; none if the text breaks off there. -/
def advance? (fs : List Frame) : Place → Token → Option (List Frame × Place)
  | .value, t => begin? fs t
  | .firstItem, .endArray => some (fs, .after (.array .closed))
  | .firstItem, t => begin? (.array [] :: fs) t
  | .firstKey, .endObject => some (fs, .after (.object .closed))
  | .firstKey, .text k => some (fs, .colon [] k)
  | .key entries, .text k => some (fs, .colon entries k)
  | .colon entries k, .colon => some (.object entries k :: fs, .value)
  | .after v, t =>
    match fs, t with
    | .array items :: fs', .comma => some (.array (v :: items) :: fs', .value)
    | .array items :: fs', .endArray =>
      some (fs', .after (.array (.pushAll .closed (v :: items))))
    | .object entries k :: fs', .comma => some (fs', .key ((k, v) :: entries))
    | .object entries k :: fs', .endObject =>
      some (fs', .after (.object (.pushAll .closed ((k, v) :: entries))))
    | _, _ => none
  | _, _ => none

/-- The document that has the value `v` in the innermost open list and ends there. -/
def cutAfter (v : Node) : List Frame → Node
  | [] => v
  | .array items :: fs => cutAfter (.array (.pushAll .cut (v :: items))) fs
  | .object entries k :: fs => cutAfter (.object (.pushAll .cut ((k, v) :: entries))) fs

def Place.pending : Place → Node
  | .value => .cut
  | .firstItem => .array .cut
  | .firstKey => .object .cut
  | .key entries => .object (.pushAll .cut entries)
  | .colon entries k => .object (.pushAll .cut ((k, .cut) :: entries))
  | .after v => v

/-- What is pending when the token `t` does not fit the place. -/
def Place.pendingBefore : Place → Token → Node
  | .firstKey, .beginArray => .object (.keyless (.array .cut))
  | .firstKey, .beginObject => .object (.keyless (.object .cut))
  | .firstKey, t =>
    match scalar? t with
    | some v => .object (.keyless v)
    | none => .object .cut
  | p, _ => p.pending

structure Document where
  root : Node
  /-- Whether the root is whole and nothing follows it. -/
  ends : Bool

def build (fs : List Frame) (p : Place) : List Token → Document
  | [] =>
    match fs, p with
    | [], .after v => ⟨v, true⟩
    | _, _ => ⟨cutAfter p.pending fs, false⟩
  | t :: r =>
    match advance? fs p t with
    | some (fs', p') => build fs' p' r
    | none => ⟨cutAfter (p.pendingBefore t) fs, false⟩

def document (s : String) : Document := build [] .value (tokens s)

end JobConsole.Json
