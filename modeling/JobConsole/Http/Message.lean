import JobConsole.Error
import JobConsole.Json.Value
import JobConsole.Live.Channel

/-! # HTTP messages

Requests and responses as far as the console looks at them. Header names are in lower case. The
content of a notice is a text for people and is left open.
-/

namespace JobConsole.Http

inductive Method where
  | get
  | head
  | post
  | patch
  | options
  | other (name : String)
  deriving DecidableEq, Repr

namespace Method

def ofName : String → Method
  | "GET" => get
  | "HEAD" => head
  | "POST" => post
  | "PATCH" => patch
  | "OPTIONS" => options
  | s => other s

def name : Method → String
  | get => "GET"
  | head => "HEAD"
  | post => "POST"
  | patch => "PATCH"
  | options => "OPTIONS"
  | other s => s

end Method

abbrev Headers := List (String × String)

structure Request where
  method : Method
  /-- The path, the query behind a question mark, and a fragment behind a number sign. -/
  target : String
  headers : Headers
  body : List UInt8

inductive Content where
  | empty
  | notice
  | json (j : Json)
  | file (octets : List UInt8)
  | stream (c : Live.Channel)

structure Response where
  status : Nat
  headers : Headers
  content : Content

/-- Whether a text can be the value of a header: it holds no control character but the tab. -/
def isHeaderText (s : String) : Bool :=
  s.toList.all fun c => c = '\t' || (32 ≤ c.toNat && c.toNat ≠ 127)

namespace Response

def contentTypeName : String := "content-type"

def plainText : String := "text/plain; charset=utf-8"

def empty (status : Nat) : Response := ⟨status, [], .empty⟩

def notice (status : Nat) : Response := ⟨status, [(contentTypeName, plainText)], .notice⟩

def json (status : Nat) (j : Json) : Response :=
  ⟨status, [(contentTypeName, "application/json")], .json j⟩

/-- A result stands under the key `data`. -/
def data (status : Nat) (j : Json) : Response := json status (.object [("data", j)])

def header? (r : Response) (name : String) : Option String := r.headers.lookup name

def addHeaders (r : Response) (hs : Headers) : Response := { r with headers := r.headers ++ hs }

end Response

end JobConsole.Http
