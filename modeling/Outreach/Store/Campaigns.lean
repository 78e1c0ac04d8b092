import Outreach.Campaign.Request
import Outreach.Paging
import Outreach.Store.Basic

/-!
# Campaigns in the store

Looking campaigns up and listing them.
-/

namespace Outreach.Store

def campaign (s : Store) (id : Id) : Except Fault Campaign :=
  match s.campaigns.find? id with
  | some c => .ok c
  | none => .error (.missing .campaign)

/-- Put a campaign into the store as it is. -/
def putCampaign (s : Store) (c : Campaign) : Store := { s with campaigns := s.campaigns.put c }

/-- Which campaigns are wanted, and which page of them. -/
structure CampaignQuery where
  page : Option Nat
  limit : Option Nat
  status : Option Campaign.Status

namespace CampaignQuery

def accepts (q : CampaignQuery) (c : Campaign) : Bool := q.status.all (c.status == ·)

open Json Json.Fields in
def ofJson? : Json → Option CampaignQuery := record? do
  return { page := ← Fields.optional "page" fun j ↦ j.count?.map UInt64.toNat
           limit := ← Fields.optional "limit" fun j ↦ j.count?.map UInt64.toNat
           status := ← Fields.optional "status" Campaign.Status.ofJson? }

end CampaignQuery

/-- The wanted campaigns, newest first. -/
def campaignsFor (s : Store) (q : CampaignQuery) : List Campaign :=
  (s.campaigns.rows.filter q.accepts).mergeSort Campaign.newerFirst

/-- The wanted page of the wanted campaigns. -/
def listCampaigns (s : Store) (q : CampaignQuery) : Except Fault (Paging.Page Campaign) :=
  (Paging.Request.of q.page q.limit).map (·.slice (s.campaignsFor q))

end Outreach.Store
