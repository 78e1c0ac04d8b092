import Outreach.Audience.Basic
import Outreach.Campaign.Dispatch

/-!
# Settings

What can be set from outside, section by section, with the values that hold if nothing is set.
-/

namespace Outreach

/-! ## Single values -/

/-- The hours that a login lasts if nothing is set, or if the setting makes no sense. -/
def Settings.usualTokenHours : Int := 168

/-! What a single setting is if nothing is set. -/

namespace Settings.Usual

def nodeId : String := "crm-01"
def host : String := "0.0.0.0"
def httpSocket : UInt16 := 5000
def frontendOrigin : String := "http://localhost:5173"
def metricsEnabled : Bool := true
def metricsSocket : UInt16 := 9091
def completionDelay : UInt64 := 5000
def delivery : Float := 0.95
def opening : Float := 0.25
def click : Float := 0.05
def preview : Nat := 10
def insights : Nat := 5
def adminName : String := "Admin User"
def adminEmail : String := "admin@xeno-crm.com"
def adminPassword : String := "admin123"
def tokenHours : Int := usualTokenHours
def seed : Bool := true

end Settings.Usual

/-! ## Sections -/

/-- Where the service is reached. -/
structure Settings.Api where
  host : String
  httpSocket : UInt16
  /-- The origin that pages may call from; a star stands for every origin. -/
  frontendOrigin : String
deriving DecidableEq

/-- Whether and where figures about the service are given out. -/
structure Settings.Metrics where
  enabled : Bool
  socket : UInt16
deriving DecidableEq

/-- How campaigns run and are previewed. -/
structure Settings.Campaigns where
  completionDelay : UInt64
  /-- The shares by which a run is simulated. -/
  rates : Campaign.Rates
  samples : Audience.SampleSizes
deriving DecidableEq

/-- Who logs in, and for how long. -/
structure Settings.Auth where
  adminName : String
  adminEmail : String
  adminPassword : String
  tokenHours : Int
deriving DecidableEq

structure Settings where
  nodeId : String
  api : Settings.Api
  metrics : Settings.Metrics
  campaigns : Settings.Campaigns
  auth : Settings.Auth
  seed : Bool
deriving DecidableEq

namespace Settings

/-! What a section is if nothing is said about it. -/

def Api.usual : Api where
  host := Usual.host
  httpSocket := Usual.httpSocket
  frontendOrigin := Usual.frontendOrigin

def Metrics.usual : Metrics where
  enabled := Usual.metricsEnabled
  socket := Usual.metricsSocket

def Campaigns.usual : Campaigns where
  completionDelay := Usual.completionDelay
  rates := ⟨Usual.delivery, Usual.opening, Usual.click⟩
  samples := ⟨Usual.preview, Usual.insights⟩

def Auth.usual : Auth where
  adminName := Usual.adminName
  adminEmail := Usual.adminEmail
  adminPassword := Usual.adminPassword
  tokenHours := Usual.tokenHours

def usual : Settings where
  nodeId := Usual.nodeId
  api := .usual
  metrics := .usual
  campaigns := .usual
  auth := .usual
  seed := Usual.seed

/-! ## Logins -/

/-- The most hours that a login may last, a year. -/
def maxTokenHours : Int := 8760

/-- How many seconds a login lasts, if the setting makes sense. -/
def Auth.tokenSeconds? (a : Auth) : Option Int :=
  if 1 ≤ a.tokenHours ∧ a.tokenHours ≤ maxTokenHours then some (a.tokenHours * 3600) else none

def Auth.tokenSeconds (a : Auth) : Int := a.tokenSeconds?.getD (usualTokenHours * 3600)

/-! ## Refusals -/

/-- Why settings are refused. -/
inductive Fault where
  | unreadable
  | tokenHours (hours : Int)
deriving DecidableEq, Repr

/-- What is said about a refusal, if anything is. -/
def Fault.message? : Fault → Option String
  | .unreadable => none
  | .tokenHours hours =>
    some ("auth.token_ttl_hours must be between 1 and " ++ toString maxTokenHours ++ ", got " ++
      toString hours)

/-- Settings under which logins last a sensible time. -/
def check (s : Settings) : Except Fault Unit :=
  if s.auth.tokenSeconds?.isSome then .ok () else .error (.tokenHours s.auth.tokenHours)

end Settings

end Outreach
