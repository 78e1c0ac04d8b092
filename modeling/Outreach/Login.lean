import Outreach.Calendar.Writing
import Outreach.Fault
import Outreach.Settings.Basic
import Outreach.Store.Basic
import Outreach.Text.Blank
import Outreach.Text.Lowercase

/-!
# Logging in

A login gives out a token, by which its user is known until the login expires or is ended. Logins
that have expired are forgotten when they are met.
-/

namespace Outreach

open Calendar

structure Login where
  token : String
  user : User
  expiresAt : Instant
deriving DecidableEq

namespace Login

/-- The form in which users are looked up. -/
def normalized (email : String) : String := Text.lower (Text.trim email)

def isLive (l : Login) (now : Instant) : Bool := now.lt l.expiresAt

/-- Who is asking to log in. -/
structure Request where
  email : String
  password : String

open Json Json.Fields in
def Request.ofJson? : Json → Option Request := record? do
  return { email := ← required "email" text?
           password := ← required "password" text? }

def toJson (l : Login) : Json :=
  .object [("token", .text l.token), ("user", l.user.toJson), ("expiresAt", l.expiresAt.toJson)]

end Login

/-- Who can log in, and who has. -/
structure Desk where
  admin : User
  password : String
  lifetime : Int
  logins : Table Login.token

namespace Desk

/-- The desk that settings describe, before anyone has logged in. -/
def ofSettings (s : Settings.Auth) (adminId : Id) : Desk where
  admin := ⟨adminId, s.adminName, Login.normalized s.adminEmail, "admin"⟩
  password := s.adminPassword
  lifetime := s.tokenSeconds
  logins := .empty _

def login (d : Desk) (stamp : Stamp) (r : Login.Request) : Outcome Desk Login :=
  if Login.normalized r.email = d.admin.email ∧ r.password = d.password then
    match stamp.now.addSeconds? d.lifetime with
    | none => (.error .clockEnded, d)
    | some expiresAt =>
      let l : Login := ⟨stamp.token, d.admin, expiresAt⟩
      (.ok l, { d with logins := d.logins.put l })
  else (.error .badCredentials, d)

/-- The user behind a token. An expired login is forgotten. -/
def verify (d : Desk) (now : Instant) (token : String) : Outcome Desk User :=
  match d.logins.find? token with
  | none => (.error .badToken, d)
  | some l =>
    if l.isLive now then (.ok l.user, d)
    else (.error .badToken, { d with logins := d.logins.erase token })

/-- End a login; tell whether there was one. -/
def logout (d : Desk) (token : String) : Bool × Desk :=
  (d.logins.contains token, { d with logins := d.logins.erase token })

/-- Forget the logins that have expired; tell how many there were. -/
def purge (d : Desk) (now : Instant) : Nat × Desk :=
  let kept := d.logins.filter (·.isLive now)
  (d.logins.size - kept.size, { d with logins := kept })

end Desk

end Outreach
