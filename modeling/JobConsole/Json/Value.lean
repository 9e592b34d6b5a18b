import JobConsole.Dict

/-! # JSON values

A value is what a document means once it is read. Integers of 64 bits, signed or unsigned, stay
exact; every other number is a double, kept by its bits. An object keeps the order of its members;
an object read from a document has them in ascending key order and each key once.
-/

namespace JobConsole

inductive Number where
  | int (n : Int)
  | double (bits : UInt64)
  deriving DecidableEq, Repr, Inhabited

inductive Json where
  | null
  | bool (b : Bool)
  | number (n : Number)
  | text (s : String)
  | array (items : List Json)
  | object (members : List (String × Json))
  deriving Repr, Inhabited

namespace Json

def int (n : Int) : Json := .number (.int n)

def nat (n : Nat) : Json := .number (.int n)

def orNull {α : Type} (f : α → Json) : Option α → Json
  | none => .null
  | some a => f a

def texts (s : List String) : Json := .array (s.map .text)

def ofDict (d : Dict Json) : Json := .object d.entries

def member? (k : String) : Json → Option Json
  | .object members => members.lookup k
  | _ => none

def text? : Json → Option String
  | .text s => some s
  | _ => none

end Json

end JobConsole
