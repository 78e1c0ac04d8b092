import Outreach.Customer.Json
import Outreach.Decimal.Binary

/-!
# Statistics of a segment

Totals and averages of spending and visits over a list of customers, and the rounded form in which
they are shown.
-/

namespace Outreach.Audience

open Decimal Json Json.Fields

/-- Totals and averages over customers. -/
structure Statistics where
  totalSpending : Float
  averageSpending : Float
  totalVisits : UInt64
  averageVisits : Float
deriving DecidableEq

namespace Statistics

def zero : Statistics := ⟨0.0, 0.0, 0, 0.0⟩

/-- The statistics of a list of customers, if there is room for the sum of their visits. -/
def ofCustomers? (customers : List Customer) : Option Statistics :=
  if customers.isEmpty then some zero
  else do
    let count := ofCount customers.length
    let spending := sum (customers.map (·.totalSpending))
    let visits ← (customers.map (·.visits)).foldlM plus? 0
    return ⟨spending, spending / count, visits, visits.toFloat / count⟩

/-- Spending in whole units, visits on average to two places. -/
def rounded (s : Statistics) : Statistics :=
  ⟨roundWhole s.totalSpending, roundWhole s.averageSpending, s.totalVisits,
    roundCents s.averageVisits⟩

def toJson (s : Statistics) : Json :=
  .object [("totalSpending", ofFloat s.totalSpending), ("averageSpending", ofFloat s.averageSpending),
    ("totalVisits", .ofCount s.totalVisits), ("averageVisits", ofFloat s.averageVisits)]

def ofJson? : Json → Option Statistics := record? do
  return { totalSpending := ← required "totalSpending" float?
           averageSpending := ← required "averageSpending" float?
           totalVisits := ← required "totalVisits" count?
           averageVisits := ← required "averageVisits" float? }

end Statistics

end Outreach.Audience
