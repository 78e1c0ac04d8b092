import Outreach.Calendar.Writing
import Outreach.Id

/-!
# Users and the audit log

Who works with the data, and the log of who did what to which record, and when. Everything that is done
to a campaign is put down to a user.
-/

namespace Outreach

/-! ## Users -/

structure User where
  id : Id
  name : String
  /-- The address for mail, by which the audit log refers to the user. -/
  email : String
  role : String
deriving DecidableEq

namespace User

open Json Json.Fields

def toJson (u : User) : Json :=
  .object [("id", u.id.toJson), ("name", .text u.name), ("email", .text u.email),
    ("role", .text u.role)]

def ofJson? : Json → Option User := record? do
  return { id := ← required "id" Id.ofJson?
           name := ← required "name" text?
           email := ← required "email" text?
           role := ← required "role" text? }

end User

/-! ## The log -/

namespace Audit

open Calendar Json Json.Fields

inductive Action where
  | create
  | update
  | delete
  | start
  | pause
  | complete
  | login
deriving DecidableEq, Repr

/-- An entry of the log. -/
structure Entry where
  id : Id
  user : String
  action : Action
  resourceType : String
  resourceId : String
  details : Json
  timestamp : Instant

def Entry.laterFirst (a b : Entry) : Bool := b.timestamp.le a.timestamp

namespace Action

def name : Action → String
  | .create => "create"
  | .update => "update"
  | .delete => "delete"
  | .start => "start"
  | .pause => "pause"
  | .complete => "complete"
  | .login => "login"

def ofName? : String → Option Action
  | "create" => some .create
  | "update" => some .update
  | "delete" => some .delete
  | "start" => some .start
  | "pause" => some .pause
  | "complete" => some .complete
  | "login" => some .login
  | _ => none

@[simp] theorem ofName?_name (a : Action) : ofName? a.name = some a := by cases a <;> rfl

def ofJson? : Json → Option Action := choice? ofName?

end Action

def Entry.toJson (e : Entry) : Json :=
  .object [("id", e.id.toJson), ("user", .text e.user), ("action", .text e.action.name),
    ("resourceType", .text e.resourceType), ("resourceId", .text e.resourceId),
    ("details", e.details), ("timestamp", e.timestamp.toJson)]

def Entry.ofJson? : Json → Option Entry := record? do
  return { id := ← required "id" Id.ofJson?
           user := ← required "user" text?
           action := ← required "action" Action.ofJson?
           resourceType := ← required "resourceType" text?
           resourceId := ← required "resourceId" text?
           details := ← required "details" some
           timestamp := ← required "timestamp" Instant.ofJson? }

end Audit

end Outreach
