import JobConsole.Http.Message

/-! # Failures as responses

A failure is answered with a status, a code for programs and a text for people. Internal details do
not leave the server.
-/

namespace JobConsole

namespace Failure

def status : Failure → Nat
  | notFound .. => 404
  | validation _ => 400
  | conflict _ => 409
  | capacity _ => 503
  | internal _ => 500
  | badRequest _ => 400
  | boundary _ => 500

def code : Failure → String
  | notFound .. => "NOT_FOUND"
  | validation _ => "VALIDATION_ERROR"
  | conflict _ => "CONFLICT"
  | capacity _ => "CAPACITY"
  | internal _ => "INTERNAL_ERROR"
  | badRequest _ => "BAD_REQUEST"
  | boundary _ => "INTERNAL_ERROR"

def internalText : String := "An internal error occurred"

/-- What clients are told. -/
def publicText : Failure → String
  | notFound e id => e.name ++ " with id " ++ id ++ " not found"
  | validation m => m
  | conflict m => m
  | capacity m => m
  | internal _ => internalText
  | badRequest m => m
  | boundary _ => internalText

def body (f : Failure) : Json :=
  .object [("error", .text f.publicText), ("code", .text f.code)]

def response (f : Failure) : Http.Response := .json f.status f.body

end Failure

end JobConsole
