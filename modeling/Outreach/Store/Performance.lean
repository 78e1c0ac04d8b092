import Outreach.Campaign.Json
import Outreach.Decimal.Binary
import Outreach.Store.Basic

/-!
# Figures about campaigns

How many campaigns there are, what the completed ones achieved together, and the latest of all.
-/

namespace Outreach.Store

open Decimal Json

/-- What completed campaigns achieved together. -/
structure Performance where
  sent : UInt64
  delivered : UInt64
  opened : UInt64
  clicked : UInt64
  failed : UInt64

namespace Performance

def zero : Performance := ⟨0, 0, 0, 0, 0⟩

/-- Add the figures of a run, if there is room for all sums. -/
def add? (p : Performance) (s : Campaign.Stats) : Option Performance :=
  return ⟨← plus? p.sent s.sent, ← plus? p.delivered s.delivered, ← plus? p.opened s.opened,
    ← plus? p.clicked s.clicked, ← plus? p.failed s.failed⟩

/-- What percentage a part is of a whole, to two places; none of nothing. -/
def percent (part whole : UInt64) : Float :=
  if whole = 0 then 0.0 else Decimal.roundCents (part.toFloat / whole.toFloat * 100.0)

def deliveryRate (p : Performance) : Float := percent p.delivered p.sent

def openRate (p : Performance) : Float := percent p.opened p.delivered

/-- The share that led to a click. -/
def clickRate (p : Performance) : Float := percent p.clicked p.opened

def toJson (p : Performance) : Json :=
  .object [("totalSent", ofCount p.sent), ("totalDelivered", ofCount p.delivered),
    ("totalOpened", ofCount p.opened), ("totalClicked", ofCount p.clicked),
    ("totalFailed", ofCount p.failed), ("deliveryRate", ofFloat p.deliveryRate),
    ("openRate", ofFloat p.openRate), ("clickRate", ofFloat p.clickRate)]

end Performance

structure CampaignFigures where
  total : Nat
  active : Nat
  completed : Nat
  performance : Performance
  recent : List Campaign.Digest

def madeLater (a b : Campaign) : Bool := b.createdAt.le a.createdAt

def digestCount : Nat := 5

/-- The figures about the campaigns, if there is room for what the completed ones achieved. -/
def campaignFigures? (s : Store) : Option CampaignFigures :=
  let cs := s.campaigns.rows
  let runs := (cs.filter (·.status == .completed)).map (·.stats)
  (runs.foldlM Performance.add? .zero).map fun performance ↦
    { total := cs.length
      active := cs.countP (·.status == .running)
      completed := cs.countP (·.status == .completed)
      performance
      recent := ((cs.mergeSort madeLater).take digestCount).map Campaign.digest }

def CampaignFigures.toJson (f : CampaignFigures) : Json :=
  .object [("overview", .object [("totalCampaigns", ofSize f.total),
      ("activeCampaigns", ofSize f.active), ("completedCampaigns", ofSize f.completed)]),
    ("performance", f.performance.toJson),
    ("recentCampaigns", ofList Campaign.Digest.toJson f.recent)]

end Outreach.Store
