import Outreach.Fault

/-!
# Replies

What is answered to a request: a status and a body. The reply to a fault says what sort of fault it
is and what is wrong; faults of the service itself are not described.
-/

namespace Outreach.Http

/-- What a reply says. -/
inductive Body where
  | empty
  | json (j : Json)
  | plain (remark : String)

structure Reply where
  status : Nat
  body : Body

namespace Reply

def bare (status : Nat) : Reply := ⟨status, .empty⟩

def ok (j : Json) : Reply := ⟨200, .json j⟩

def created (j : Json) : Reply := ⟨201, .json j⟩

def noContent : Reply := bare 204

def errorJson (code message : String) : Json :=
  .object [("error", .text code), ("message", .text message)]

def withoutBody (r : Reply) : Reply := { r with body := .empty }

end Reply

end Outreach.Http

namespace Outreach.Report

open Http

/-- The status code for a sort of fault. -/
def Kind.status : Kind → Nat
  | .missing => 404
  | .validation | .invalidState => 400
  | .conflict => 409
  | .unauthorized => 401
  | .configuration | .serialization | .internal => 500

/-- The word for a sort of fault. -/
def Kind.code : Kind → String
  | .missing => "not_found"
  | .validation => "validation_failed"
  | .invalidState => "invalid_state"
  | .conflict => "conflict"
  | .unauthorized => "unauthorized"
  | .configuration | .serialization | .internal => "internal_error"

def told (r : Report) : String :=
  match r.kind with
  | .missing => r.message
  | .configuration | .serialization | .internal => "Something went wrong"
  | _ => r.detail

def reply (r : Report) : Reply :=
  ⟨r.kind.status, .json (Reply.errorJson r.kind.code r.told)⟩

end Outreach.Report

namespace Outreach.Http

/-- The reply to a fault that the program survives. -/
def Reply.ofFault? (f : Fault) : Option Reply := f.report?.map Report.reply

end Outreach.Http
