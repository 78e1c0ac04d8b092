import Outreach.Calendar.Writing
import Outreach.Demo.Seed
import Outreach.Http.Service

/-!
# Replaying requests

Requests with the times at which they came, answered one after the other by a service that began
before the first of them. Between two requests the completions run that fall due.
-/

namespace Outreach.Http

open Calendar Json Json.Fields

/-- A request and when it came. -/
structure Timed where
  arrival : Instant
  request : Request

/-- The request of a value; without a method it asks for the target. -/
def Timed.ofJson? : Json → Option Timed := record? do
  return { arrival := ← required "at" Instant.ofJson?
           request :=
            { method := ← withDefault "method" .get fun j ↦ j.text?.bind Method.ofName?
              target := ← required "path" fun j ↦ j.text?.bind Target.ofText?
              authorization := ← optionalD "authorization" text?
              contentType := ← optionalD "contentType" text?
              body := ← withDefault "body" "" text? } }

/-- What a body says, as a value. -/
def Body.toJson : Body → Json
  | .empty => .null
  | .json j => j
  | .plain remark => .text remark

def Reply.toJson (r : Reply) : Json := .object [("status", .ofSize r.status), ("body", r.body.toJson)]

/-- A service between two requests. -/
structure Replay where
  service : Service
  now : Instant
  /-- How many throws have been used for identities and tokens. -/
  used : Nat

namespace Replay

def throwsPerStamp : Nat := 3

/-- An identity that a throw gives; the bits that tell how it came about are set. -/
def idOf (throw : Nat) : Id :=
  ⟨(BitVec.ofNat 128 throw &&& 0xffffffffffff0fff3fffffffffffffff) |||
    0x00000000000040008000000000000000⟩

def tokenOf (throw : Nat) : String := String.ofList (['c', 'r', 'm', '_'] ++ Text.hexDigits 64 throw)

/-- The stamp for a time that begins with a given throw. -/
def stamp (chance : Demo.Chance) (now : Instant) (n : Nat) : Stamp :=
  ⟨now, idOf (chance n), idOf (chance (n + 1)), tokenOf (chance (n + 2))⟩

/-- A service that begins at some time, with demonstration data if the settings say so. -/
def begin (settings : Settings) (chance : Demo.Chance) (now : Instant) : Replay :=
  let service := Service.begin settings (idOf (chance 0)) now
  let store :=
    if settings.seed then
      (Demo.seed service.crm.store now service.desk.admin (fun n ↦ idOf (chance (n + 1)))
        (fun n ↦ chance (n + 1000))).2
    else service.crm.store
  { service := (service.withStore store).markReady, now, used := 100000 }

/-- Let the time pass until a request comes; each completion that falls due takes a stamp. -/
def wait (chance : Demo.Chance) (r : Replay) (arrival : Instant) : Replay :=
  let ms := (arrival.millis - r.now.millis).toNat
  let due := (r.service.crm.schedule.dueWithin ms).length
  let stamps (n : Nat) : Stamp := stamp chance arrival (r.used + throwsPerStamp * n)
  { service := { r.service with crm := r.service.crm.advance stamps ms }
    now := arrival
    used := r.used + throwsPerStamp * due }

/-- Answer a request when it comes, if the service survives it. -/
def step (chance : Demo.Chance) (r : Replay) (t : Timed) : Option Reply × Replay :=
  let r := r.wait chance t.arrival
  let (reply, service) := r.service.answer (stamp chance t.arrival r.used) t.request
  (reply, { r with service, used := r.used + throwsPerStamp })

end Replay

end Outreach.Http
