import Outreach.Crm.Basic
import Outreach.Demo.Records
import Outreach.Store.Customers

/-!
# Filling the store for demonstration

Twenty customers, fifty orders among those of them that could be added, and three campaigns.
-/

namespace Outreach.Demo

open Calendar

def orderTotal : Nat := 50

structure Summary where
  customers : Nat
  orders : Nat
  campaigns : Nat
deriving DecidableEq, Repr

/-- Add the customers with some names; the first number counts them. Gives the identities of those
whose address for mail was free. -/
def addCustomers (now : Instant) (ids : Nat → Id) (chance : Chance) :
    Nat → List String → Store → List Id × Store
  | _, [], s => ([], s)
  | n, name :: names, s =>
    let c := customer name (ids n) now fun k ↦ chance (64 * n + k)
    let (added, s) := s.insertCustomer c
    let (rest, s) := addCustomers now ids chance (n + 1) names s
    (if added then c.id :: rest else rest, s)

/-- Add a number of orders among customers; there are none without customers. -/
def addOrders (now : Instant) (ids : Nat → Id) (chance : Chance) (customers : List Id) :
    Nat → Store → Store
  | 0, s => s
  | n + 1, s =>
    let throws : Chance := fun k ↦ chance (64 * (n + 100) + k)
    match customers[throws 63 % customers.length]? with
    | none => s
    | some customerId =>
      let count := s.orderCount + 1
      addOrders now ids chance customers n
        { s with
          orderCount := count
          orders := s.orders.put (order (ids (n + 100)) customerId count now throws) }

/-- Add campaigns, each made five days after the one before it; the first number counts them. -/
def addCampaigns (now : Instant) (ids : Nat → Id) (admin : User) :
    Nat → List Theme → Store → Store
  | _, [], s => s
  | n, t :: ts, s =>
    let made := daysAgo now (20 - 5 * n)
    addCampaigns now ids admin (n + 1) ts
      (s.putCampaign (campaign t (ids (n + 200)) (Crm.audienceSize s t.rules) admin made))

def seed (s : Store) (now : Instant) (admin : User) (ids : Nat → Id) (chance : Chance) :
    Summary × Store :=
  let (customers, s) := addCustomers now ids chance 0 names s
  let s := addOrders now ids chance customers orderTotal s
  let s := addCampaigns now ids admin 0 (themes now) s
  (⟨customers.length, if customers.isEmpty then 0 else orderTotal, (themes now).length⟩, s)

end Outreach.Demo
