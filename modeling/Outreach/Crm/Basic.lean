import Outreach.Audience.Insights
import Outreach.Campaign.Dispatch
import Outreach.Campaign.Lifecycle
import Outreach.Campaign.Schedule
import Outreach.Settings.Basic
import Outreach.Store.Campaigns

/-!
# Campaigns at work

The store together with the completions that are to come, and what is done to campaigns: they are
made, edited, deleted, started and paused. Each of these is written into the audit log, and one that
is refused changes nothing.
-/

namespace Outreach

open Calendar

/-- The records and the completions that are to come. -/
structure Crm where
  store : Store
  schedule : Campaign.Schedule

namespace Crm

/-- No records, and nothing is to come. -/
def empty : Crm := ⟨.empty, .empty⟩

/-! ## Audiences -/

/-- How many active customers a list of rules lets through. -/
def audienceSize (s : Store) (rules : List Rule) : UInt64 :=
  (Audience.size s.customers.rows rules).toUInt64

/-! ## Editing -/

/-- The record of a campaign to be made. -/
def newCampaign (r : Campaign.New) (size : UInt64) (user : User) (stamp : Stamp) : Campaign where
  id := stamp.id
  name := Text.trim r.name
  description := r.description
  channel := r.channel
  message := r.message
  audienceRules := r.audienceRules
  audienceSize := size
  status := .draft
  scheduledAt := r.scheduledAt
  sentAt := none
  completedAt := none
  stats := .zero
  createdBy := user.id
  createdAt := stamp.now
  updatedAt := stamp.now

/-- Make a campaign, which begins as a draft. -/
def createCampaign (w : Crm) (stamp : Stamp) (user : User) (r : Campaign.New) :
    Outcome Crm Campaign :=
  match r.check with
  | .error f => (.error f, w)
  | .ok _ =>
    let c := newCampaign r (audienceSize w.store r.audienceRules) user stamp
    (.ok c, { w with
      store := (w.store.putCampaign c).recordCampaign stamp user.email .create c.id
        [("name", .text c.name), ("audienceSize", .ofCount c.audienceSize)] })

/-- The record after an edit. New rules determine the audience anew. -/
def edited (r : Campaign.Edit) (size : List Rule → UInt64) (c : Campaign) (now : Instant) :
    Campaign :=
  { c with
    name := (r.name.map Text.trim).getD c.name
    description := r.description.or c.description
    channel := r.channel.getD c.channel
    message := r.message.getD c.message
    audienceRules := r.audienceRules.getD c.audienceRules
    audienceSize := (r.audienceRules.map size).getD c.audienceSize
    scheduledAt := r.scheduledAt.or c.scheduledAt
    status := r.status.getD c.status
    updatedAt := now }

def updateCampaign (w : Crm) (stamp : Stamp) (user : User) (id : Id) (r : Campaign.Edit) :
    Outcome Crm Campaign :=
  match r.check, r.status.forM Campaign.Status.ensureAssignable with
  | .error f, _ => (.error f, w)
  | .ok _, .error f => (.error f, w)
  | .ok _, .ok _ =>
    match w.store.campaigns.find? id with
    | none => (.error (.missing .campaign), w)
    | some c =>
      match c.status.ensureEditable with
      | .error f => (.error f, w)
      | .ok _ =>
        let c := edited r (audienceSize w.store) c stamp.now
        (.ok c, { w with
          store := (w.store.putCampaign c).recordCampaign stamp user.email .update id
            [("status", c.status.toJson), ("audienceSize", .ofCount c.audienceSize)] })

def deleteCampaign (w : Crm) (stamp : Stamp) (user : User) (id : Id) : Outcome Crm Unit :=
  match w.store.campaigns.find? id with
  | none => (.error (.missing .campaign), w)
  | some c =>
    match c.status.ensureDeletable with
    | .error f => (.error f, w)
    | .ok _ =>
      (.ok (), { w with
        store := { w.store with campaigns := w.store.campaigns.erase id }.recordCampaign stamp
          user.email .delete id [("name", .text c.name)] })

/-! ## Runs -/

/-- When a run begins, which is after the run before it even if the clock is not. -/
def runStart? (previous : Option Instant) (now : Instant) : Option Instant :=
  match previous with
  | some t => if now.le t then t.succ? else some now
  | none => some now

/-- The record of a campaign whose run begins. -/
def started (c : Campaign) (status : Campaign.Status) (size : UInt64) (rates : Campaign.Rates)
    (run now : Instant) : Campaign :=
  { c with
    status
    audienceSize := size
    stats := rates.dispatch size
    sentAt := some run
    completedAt := none
    updatedAt := now }

/-- Start a campaign: determine its audience, dispatch to it, and set the timer. -/
def startCampaign (w : Crm) (settings : Settings.Campaigns) (stamp : Stamp) (user : User) (id : Id) :
    Outcome Crm Campaign :=
  match w.store.campaigns.find? id with
  | none => (.error (.missing .campaign), w)
  | some c =>
    match c.status.after .start, runStart? c.sentAt stamp.now with
    | .error f, _ => (.error f, w)
    | .ok _, none => (.error .clockEnded, w)
    | .ok status, some run =>
      let c := started c status (audienceSize w.store c.audienceRules) settings.rates run stamp.now
      (.ok c,
        { store := (w.store.putCampaign c).recordCampaign stamp user.email .start id
            [("sent", .ofCount c.stats.sent)]
          schedule := w.schedule.arm id run settings.completionDelay })

/-- Pause a campaign. Its timer is left, and will find that the run is over. -/
def pauseCampaign (w : Crm) (stamp : Stamp) (user : User) (id : Id) : Outcome Crm Campaign :=
  match w.store.campaigns.find? id with
  | none => (.error (.missing .campaign), w)
  | some c =>
    match c.status.after .pause with
    | .error f => (.error f, w)
    | .ok status =>
      let c := { c with status, updatedAt := stamp.now }
      (.ok c, { w with
        store := (w.store.putCampaign c).recordCampaign stamp user.email .pause id [] })

/-! ## Completion -/

/-- Who completes runs, in the audit log. -/
def completer : String := "system"

/-- Complete a run, if the campaign is still in that run; tell whether it was. -/
def completeRun (s : Store) (stamp : Stamp) (id : Id) (run : Instant) : Bool × Store :=
  match s.campaigns.find? id with
  | none => (false, s)
  | some c =>
    if c.sentAt ≠ some run then (false, s)
    else match c.status.after .complete with
      | .error _ => (false, s)
      | .ok status =>
        let c := { c with status, completedAt := some stamp.now, updatedAt := stamp.now }
        (true, (s.putCampaign c).recordCampaign stamp completer .complete id [])

/-- Fire timers one after the other; the first number counts the stamps that have been used. -/
def fire (stamps : Nat → Stamp) : Nat → List Campaign.Timer → Store → Store
  | _, [], s => s
  | n, t :: ts, s => fire stamps (n + 1) ts (completeRun s (stamps n) t.campaign t.run).2

/-- Let a number of milliseconds pass and complete what falls due. -/
def advance (w : Crm) (stamps : Nat → Stamp) (ms : Nat) : Crm where
  store := fire stamps 0 (w.schedule.dueWithin ms) w.store
  schedule := w.schedule.elapse ms

end Crm

end Outreach
