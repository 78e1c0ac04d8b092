import Outreach.Calendar.Writing
import Outreach.Campaign.Basic
import Outreach.Rule.Basic

/-!
# Campaigns as values

The record of a campaign is written and read with all its fields; only texts and dates may be left
out.
-/

namespace Outreach.Campaign

open Calendar Json Json.Fields

namespace Status

def name : Status → String
  | .draft => "draft"
  | .scheduled => "scheduled"
  | .running => "running"
  | .completed => "completed"
  | .paused => "paused"
  | .cancelled => "cancelled"

def ofName? : String → Option Status
  | "draft" => some .draft
  | "scheduled" => some .scheduled
  | "running" => some .running
  | "completed" => some .completed
  | "paused" => some .paused
  | "cancelled" => some .cancelled
  | _ => none

@[simp] theorem ofName?_name (s : Status) : ofName? s.name = some s := by cases s <;> rfl

def toJson (s : Status) : Json := .text s.name

def ofJson? : Json → Option Status := choice? ofName?

end Status

namespace Channel

def name : Channel → String
  | .email => "email"
  | .sms => "sms"
  | .push => "push"

def ofName? : String → Option Channel
  | "email" => some .email
  | "sms" => some .sms
  | "push" => some .push
  | _ => none

@[simp] theorem ofName?_name (c : Channel) : ofName? c.name = some c := by cases c <;> rfl

def toJson (c : Channel) : Json := .text c.name

def ofJson? : Json → Option Channel := choice? ofName?

end Channel

def Message.toJson (m : Message) : Json :=
  .object [("subject", ofText? m.subject), ("content", .text m.content),
    ("template", ofText? m.template)]

def Message.ofJson? : Json → Option Message := record? do
  return { subject := ← optionalD "subject" text?
           content := ← required "content" text?
           template := ← optionalD "template" text? }

/-- The value of the figures of a run. -/
def Stats.toJson (s : Stats) : Json :=
  .object [("sent", ofCount s.sent), ("delivered", ofCount s.delivered), ("opened", ofCount s.opened),
    ("clicked", ofCount s.clicked), ("failed", ofCount s.failed),
    ("unsubscribed", ofCount s.unsubscribed)]

def Stats.ofJson? : Json → Option Stats := record? do
  return { sent := ← required "sent" count?
           delivered := ← required "delivered" count?
           opened := ← required "opened" count?
           clicked := ← required "clicked" count?
           failed := ← required "failed" count?
           unsubscribed := ← required "unsubscribed" count? }

def toJson (c : Campaign) : Json :=
  .object [("id", c.id.toJson), ("name", .text c.name), ("description", ofText? c.description),
    ("type", c.channel.toJson), ("message", c.message.toJson),
    ("audienceRules", ofList Rule.toJson c.audienceRules), ("audienceSize", ofCount c.audienceSize),
    ("status", c.status.toJson), ("scheduledAt", ofOption Instant.toJson c.scheduledAt),
    ("sentAt", ofOption Instant.toJson c.sentAt),
    ("completedAt", ofOption Instant.toJson c.completedAt), ("stats", c.stats.toJson),
    ("createdBy", c.createdBy.toJson), ("createdAt", c.createdAt.toJson),
    ("updatedAt", c.updatedAt.toJson)]

def ofJson? : Json → Option Campaign := record? do
  return { id := ← required "id" Id.ofJson?
           name := ← required "name" text?
           description := ← Fields.optional "description" text?
           channel := ← required "type" Channel.ofJson?
           message := ← required "message" Message.ofJson?
           audienceRules := ← required "audienceRules" (list? Rule.ofJson?)
           audienceSize := ← required "audienceSize" count?
           status := ← required "status" Status.ofJson?
           scheduledAt := ← Fields.optional "scheduledAt" Instant.ofJson?
           sentAt := ← Fields.optional "sentAt" Instant.ofJson?
           completedAt := ← Fields.optional "completedAt" Instant.ofJson?
           stats := ← required "stats" Stats.ofJson?
           createdBy := ← required "createdBy" Id.ofJson?
           createdAt := ← required "createdAt" Instant.ofJson?
           updatedAt := ← required "updatedAt" Instant.ofJson? }

def Digest.toJson (d : Digest) : Json :=
  .object [("id", d.id.toJson), ("name", .text d.name), ("status", d.status.toJson),
    ("stats", d.stats.toJson), ("createdAt", d.createdAt.toJson)]

end Outreach.Campaign
