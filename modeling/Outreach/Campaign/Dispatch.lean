import Outreach.Campaign.Basic

/-!
# Dispatch

What becomes of the messages of a run. Nothing is sent: each stage is the whole part of a share of
the stage before it, and never more than that stage.
-/

namespace Outreach.Campaign

/-- The shares that the stages of a run have in each other. -/
structure Rates where
  /-- Of the messages sent, those that arrive. -/
  delivery : Float
  /-- Of these, those that are opened. -/
  opening : Float
  /-- Of these, those that lead to a click. -/
  click : Float
deriving DecidableEq

/-- A share brought between zero and one; zero for what is not finite. -/
def clampRate (rate : Float) : Float :=
  if !rate.isFinite then 0.0
  else if rate < 0.0 then 0.0
  else if 1.0 < rate then 1.0
  else rate

/-- The whole part of a share of a count. A large count may be rounded up as a double, so the count
itself is the limit. -/
def applyRate (count : UInt64) (rate : Float) : UInt64 :=
  min (count.toFloat * clampRate rate).toUInt64 count

/-- The figures of a run with a number of recipients. -/
def Rates.dispatch (r : Rates) (recipients : UInt64) : Stats :=
  let delivered := applyRate recipients r.delivery
  let opened := applyRate delivered r.opening
  let clicked := applyRate opened r.click
  { sent := recipients
    delivered
    opened
    clicked
    failed := recipients - delivered
    unsubscribed := 0 }

end Outreach.Campaign
