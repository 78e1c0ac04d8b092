import Outreach.Audit
import Outreach.Campaign.Basic
import Outreach.Fault
import Outreach.Order.Basic
import Outreach.Table

/-!
# The store

All records: customers, orders, campaigns and the audit log. Beside the customers stands an index of
their addresses for mail, by which no two customers get the same one.

An operation takes the store and gives back what it found or made, or why it was refused, together
with the store after it.
-/

namespace Outreach

open Calendar

/-- What an operation takes from outside: the time, and identities that nothing has yet. -/
structure Stamp where
  now : Instant
  /-- The identity of a record that is made. -/
  id : Id
  /-- The identity of the entry that is written into the audit log. -/
  entryId : Id
  token : String

/-- The result of an operation, or its fault, and the state after it. -/
abbrev Outcome (σ α : Type) := Except Fault α × σ

/-- Whose an address for mail is. -/
structure Store.Owner where
  email : String
  customer : Id
deriving DecidableEq

structure Store where
  customers : Table Customer.id
  emails : Table Store.Owner.email
  orders : Table Order.id
  /-- How many order numbers have been given out. -/
  orderCount : UInt64
  campaigns : Table Campaign.id
  /-- The audit log, from the oldest entry to the newest. -/
  audit : List Audit.Entry

namespace Store

def empty : Store := ⟨.empty _, .empty _, .empty _, 0, .empty _, []⟩

/-! ## The audit log -/

/-- Write an entry into the audit log. -/
def record (s : Store) (stamp : Stamp) (user : String) (action : Audit.Action)
    (resourceType resourceId : String) (details : Json) : Store :=
  { s with
    audit := s.audit ++
      [⟨stamp.entryId, user, action, resourceType, resourceId, details, stamp.now⟩] }

/-- Write what was done to a campaign into the audit log. -/
def recordCampaign (s : Store) (stamp : Stamp) (user : String) (action : Audit.Action) (id : Id)
    (details : List (String × Json)) : Store :=
  s.record stamp user action "campaign" id.text (.object details)

/-- The audit log, from the newest entry to the oldest. -/
def auditLog (s : Store) : List Audit.Entry := s.audit.reverse.mergeSort Audit.Entry.laterFirst

@[simp] theorem customers_record (s : Store) (stamp : Stamp) (user : String)
    (action : Audit.Action) (resourceType resourceId : String) (details : Json) :
    (s.record stamp user action resourceType resourceId details).customers = s.customers := rfl

@[simp] theorem campaigns_record (s : Store) (stamp : Stamp) (user : String)
    (action : Audit.Action) (resourceType resourceId : String) (details : Json) :
    (s.record stamp user action resourceType resourceId details).campaigns = s.campaigns := rfl

end Store

end Outreach
