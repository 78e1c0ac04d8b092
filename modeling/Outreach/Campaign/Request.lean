import Outreach.Fault
import Outreach.Text.Blank

/-!
# Requests for campaigns

What is asked for when a campaign is made or edited, and the checks that come before.
-/

namespace Outreach.Campaign

open Calendar Json Json.Fields

/-- A campaign to be made. -/
structure New where
  name : String
  description : Option String
  channel : Channel
  message : Message
  audienceRules : List Rule
  scheduledAt : Option Instant

/-- An edit; what is not given stays. -/
structure Edit where
  name : Option String
  description : Option String
  channel : Option Channel
  message : Option Message
  /-- New rules, for which the audience is determined anew. -/
  audienceRules : Option (List Rule)
  scheduledAt : Option Instant
  status : Option Status

/-! ## Checks -/

def checkName (name : String) : Except Fault Unit := Fault.checkName .campaignNameShort name

/-- The content of a message is not blank. -/
def Message.check (m : Message) : Except Fault Unit :=
  if Text.isBlankText m.content then .error .contentBlank else .ok ()

/-- The name, then the message. -/
def New.check (r : New) : Except Fault Unit := do
  checkName r.name
  r.message.check

/-- The name, then the message, as far as they are given. -/
def Edit.check (r : Edit) : Except Fault Unit := do
  r.name.forM checkName
  r.message.forM Message.check

/-! ## Exchange -/

/-- The campaign to be made that a value describes. -/
def New.ofJson? : Json → Option New := record? do
  return { name := ← required "name" text?
           description := ← optionalD "description" text?
           channel := ← required "type" Channel.ofJson?
           message := ← required "message" Message.ofJson?
           audienceRules := ← withDefault "audienceRules" [] (list? Rule.ofJson?)
           scheduledAt := ← optionalD "scheduledAt" Instant.ofJson? }

def Edit.ofJson? : Json → Option Edit := record? do
  return { name := ← Fields.optional "name" text?
           description := ← Fields.optional "description" text?
           channel := ← Fields.optional "type" Channel.ofJson?
           message := ← Fields.optional "message" Message.ofJson?
           audienceRules := ← Fields.optional "audienceRules" (list? Rule.ofJson?)
           scheduledAt := ← Fields.optional "scheduledAt" Instant.ofJson?
           status := ← Fields.optional "status" Status.ofJson? }

end Outreach.Campaign
