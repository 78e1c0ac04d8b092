import Outreach.Calendar.Instant
import Outreach.Id
import Outreach.Rule.Basic

/-!
# Campaigns

A campaign is a message to the audience of a list of rules. Its record keeps the size that the
audience had when it was last determined, and the figures of its latest run.
-/

namespace Outreach

open Calendar

/-- Where a campaign stands. -/
inductive Campaign.Status where
  | draft
  | scheduled
  | running
  | completed
  | paused
  | cancelled
deriving DecidableEq, Repr

/-- The channel of a campaign. -/
inductive Campaign.Channel where
  | email
  | sms
  | push
deriving DecidableEq, Repr

/-- What a campaign says. -/
structure Campaign.Message where
  subject : Option String
  content : String
  template : Option String
deriving DecidableEq

/-- The figures of a run. -/
structure Campaign.Stats where
  sent : UInt64
  delivered : UInt64
  opened : UInt64
  /-- How many of these led to a click. -/
  clicked : UInt64
  /-- How many of those sent did not arrive. -/
  failed : UInt64
  unsubscribed : UInt64
deriving DecidableEq

def Campaign.Stats.zero : Stats := ⟨0, 0, 0, 0, 0, 0⟩

structure Campaign where
  id : Id
  name : String
  description : Option String
  channel : Campaign.Channel
  message : Campaign.Message
  audienceRules : List Rule
  /-- How many customers that were when it was last determined. -/
  audienceSize : UInt64
  status : Campaign.Status
  scheduledAt : Option Instant
  /-- When its latest run began. No two runs have the same, so this tells the runs apart. -/
  sentAt : Option Instant
  completedAt : Option Instant
  stats : Campaign.Stats
  createdBy : Id
  createdAt : Instant
  updatedAt : Instant
deriving DecidableEq

namespace Campaign

/-- What lists show of a campaign. -/
structure Digest where
  id : Id
  name : String
  status : Status
  stats : Stats
  createdAt : Instant
deriving DecidableEq

def digest (c : Campaign) : Digest := ⟨c.id, c.name, c.status, c.stats, c.createdAt⟩

/-- Newer records first; the identity decides between records of one instant. -/
def newerFirst (a b : Campaign) : Bool :=
  b.createdAt.lt a.createdAt || a.createdAt == b.createdAt && b.id.le a.id

end Campaign

end Outreach
