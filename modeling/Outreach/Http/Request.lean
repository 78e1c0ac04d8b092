import Outreach.Http.Target

/-!
# Requests

A method, a target and a few headers, with or without a body.
-/

namespace Outreach.Http

/-- What is asked for at a target. -/
inductive Method where
  | get
  | post
  | put
  | patch
  | delete
  | head
  | options
  | other (name : String)
deriving DecidableEq, Repr

namespace Method

/-- The characters of which the name of a method is made. -/
def isTokenChar (c : Char) : Bool :=
  c.isAlphanum || ['!', '#', '$', '%', '&', '\'', '*', '+', '-', '.', '^', '_', '\x60', '|', '~'].contains c

def ofName? (s : String) : Option Method :=
  match s with
  | "GET" => some .get
  | "POST" => some .post
  | "PUT" => some .put
  | "PATCH" => some .patch
  | "DELETE" => some .delete
  | "HEAD" => some .head
  | "OPTIONS" => some .options
  | name => if name != "" && name.toList.all isTokenChar then some (.other name) else none

end Method

structure Request where
  method : Method
  target : Target
  authorization : Option String
  /-- The header that says what the body is. -/
  contentType : Option String
  /-- The body; empty if there is none. -/
  body : String

end Outreach.Http
