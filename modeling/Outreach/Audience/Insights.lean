import Outreach.Audience.Basic
import Outreach.Audience.Statistics

/-!
# Insights into a segment

What share of the active customers a segment is, its statistics, and a sentence each about its
reach, its spending and its visits. The sentences are chosen by thresholds on the figures before
they are rounded.
-/

namespace Outreach.Audience

open Decimal

/-! ## Sentences -/

/-- Sentences for values above a threshold each, highest first, and one for all other values. -/
structure Tiers where
  above : List (Float × String)
  floor : String

/-- The sentence of the first threshold that a value exceeds. -/
def Tiers.choose (t : Tiers) (x : Float) : String :=
  ((t.above.find? fun step ↦ step.1 < x).map (·.2)).getD t.floor

/-- Sentences on the share of a segment in percent. -/
def reachTiers : Tiers where
  above :=
    [(50.0, "This segment represents a large portion of your customer base"),
     (20.0, "This is a moderately sized segment with good reach potential"),
     (5.0, "This is a focused segment ideal for targeted campaigns")]
  floor := "This is a highly specific segment with limited reach"

def spendTiers : Tiers where
  above :=
    [(10000.0, "High-value customers with strong purchasing power"),
     (5000.0, "Medium-value customers with moderate spending")]
  floor := "Budget-conscious customers with lower spending"

def visitTiers : Tiers where
  above :=
    [(10.0, "Highly engaged customers with frequent visits"),
     (5.0, "Moderately engaged customers")]
  floor := "Low engagement customers who may need re-activation"

def sentences (percentage : Float) (s : Statistics) : List String :=
  [reachTiers.choose percentage, spendTiers.choose s.averageSpending,
    visitTiers.choose s.averageVisits]

/-! ## Insights -/

/-- Insights into a segment. -/
structure Insights where
  segmentSize : Nat
  totalCustomers : Nat
  /-- The share of the former in the latter, in percent. -/
  percentage : Float
  /-- Its statistics, rounded. -/
  statistics : Statistics
  sentences : List String
  sample : List Customer.Summary

/-- What percentage a part is of a whole; none of nothing. -/
def share (part whole : Nat) : Float :=
  if 0 < whole then ofCount part / ofCount whole * 100.0 else 0.0

/-- The insights into the audience of a list of rules, if there are statistics of it. -/
def insights? (sizes : SampleSizes) (customers : List Customer) (rules : List Rule) :
    Option Insights :=
  let total := customers.countP Customer.isActive
  let audience := evaluate customers rules
  let percentage := share audience.length total
  (Statistics.ofCustomers? audience).map fun statistics ↦
    { segmentSize := audience.length
      totalCustomers := total
      percentage := roundCents percentage
      statistics := statistics.rounded
      sentences := Audience.sentences percentage statistics
      sample := sample sizes.insights audience }

def Insights.toJson (i : Insights) : Json :=
  .object [("segmentSize", .ofSize i.segmentSize), ("totalCustomers", .ofSize i.totalCustomers),
    ("percentage", .ofFloat i.percentage), ("statistics", i.statistics.toJson),
    ("insights", .ofList .text i.sentences),
    ("sampleCustomers", .ofList Customer.Summary.toJson i.sample)]

end Outreach.Audience
