import Outreach.Fault

/-!
# The life of a campaign

A draft or scheduled campaign is started and then runs; a running one is paused or completed. Edits
move a campaign among draft, scheduled and cancelled, but never into or out of a run: what runs or
has been completed is not edited, and what runs is not deleted.
-/

namespace Outreach.Campaign

/-- What happens to a campaign apart from edits. -/
inductive Action where
  | start
  | pause
  | complete
deriving DecidableEq, Repr

namespace Status

/-- The status that an action leads to. -/
def after : Status → Action → Except Fault Status
  | .draft, .start | .scheduled, .start => .ok .running
  | .running, .pause => .ok .paused
  | .running, .complete => .ok .completed
  | _, .start => .error .cannotStart
  | _, .pause => .error .cannotPause
  | s, .complete => .error (.cannotComplete s)

/-- Campaigns are edited unless they run or have been completed. -/
def ensureEditable : Status → Except Fault Unit
  | .running | .completed => .error .cannotEdit
  | _ => .ok ()

def ensureDeletable : Status → Except Fault Unit
  | .running => .error .cannotDelete
  | _ => .ok ()

/-- The statuses that an edit may give. -/
def isAssignable : Status → Bool
  | .draft | .scheduled | .cancelled => true
  | _ => false

/-- An edit gives only some of the statuses. -/
def ensureAssignable (s : Status) : Except Fault Unit :=
  if s.isAssignable then .ok () else .error (.statusNotAssignable s)

end Status

end Outreach.Campaign
