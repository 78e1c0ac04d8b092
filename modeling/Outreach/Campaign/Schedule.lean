import Outreach.Calendar.Instant
import Outreach.Id

/-!
# Pending completions

Every run is completed some time after its start. The schedule holds, on a clock that counts
milliseconds, when which run is due; a run is known by its campaign and the time of its start.
-/

namespace Outreach.Campaign

open Calendar

/-- A completion that is to come. -/
structure Timer where
  campaign : Id
  run : Instant
  due : Nat
deriving DecidableEq

/-- The completions that are to come. -/
structure Schedule where
  clock : Nat
  /-- The timers, in the order in which they were set. -/
  pending : List Timer
deriving DecidableEq

namespace Schedule

def empty : Schedule := ⟨0, []⟩

/-- Set a timer that is due after a number of milliseconds. -/
def arm (s : Schedule) (campaign : Id) (run : Instant) (delay : UInt64) : Schedule :=
  { s with pending := s.pending ++ [⟨campaign, run, s.clock + delay.toNat⟩] }

/-- Earlier timers first, and those of one time in the order in which they were set. -/
def Timer.sooner (a b : Timer) : Bool := a.due ≤ b.due

/-- The timers that are due when a number of milliseconds has passed, in the order in which they
are due. -/
def dueWithin (s : Schedule) (ms : Nat) : List Timer :=
  (s.pending.filter fun t ↦ t.due ≤ s.clock + ms).mergeSort Timer.sooner

/-- The schedule after a number of milliseconds, without the timers that were due. -/
def elapse (s : Schedule) (ms : Nat) : Schedule :=
  ⟨s.clock + ms, s.pending.filter fun t ↦ s.clock + ms < t.due⟩

end Schedule

end Outreach.Campaign
