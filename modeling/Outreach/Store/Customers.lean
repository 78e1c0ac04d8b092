import Outreach.Customer.Request
import Outreach.Paging
import Outreach.Store.Basic
import Outreach.Text.Lowercase

/-!
# Customers in the store

Making, changing, removing and listing customers. An address for mail is taken before a customer
gets it, and given back when the customer loses it.
-/

namespace Outreach.Store

open Calendar

/-! ## Addresses for mail -/

/-- Take an address for a customer; a taken one is refused. -/
def reserveEmail (s : Store) (email : String) (id : Id) : Outcome Store Unit :=
  if s.emails.contains email then (.error .emailTaken, s)
  else (.ok (), { s with emails := s.emails.put ⟨email, id⟩ })

/-- Give an address back that is a customer's. -/
def releaseEmail (s : Store) (email : String) (id : Id) : Store :=
  { s with emails := s.emails.filter (· != ⟨email, id⟩) }

/-! ## Single customers -/

def customer (s : Store) (id : Id) : Except Fault Customer :=
  match s.customers.find? id with
  | some c => .ok c
  | none => .error (.missing .customer)

def createCustomer (s : Store) (stamp : Stamp) (r : Customer.New) : Outcome Store Customer :=
  match r.check with
  | .error f => (.error f, s)
  | .ok _ =>
    let c := r.customer stamp.id stamp.now
    match s.reserveEmail c.email c.id with
    | (.error f, s) => (.error f, s)
    | (.ok _, s) => (.ok c, { s with customers := s.customers.put c })

/-- Change a customer. A new address is taken before the old one is given back. -/
def updateCustomer (s : Store) (stamp : Stamp) (id : Id) (r : Customer.Change) :
    Outcome Store Customer :=
  match r.check with
  | .error f => (.error f, s)
  | .ok _ =>
    match s.customers.find? id with
    | none => (.error (.missing .customer), s)
    | some c =>
      let changed := r.apply c stamp.now
      match r.newEmail? c with
      | none => (.ok changed, { s with customers := s.customers.put changed })
      | some email =>
        match s.reserveEmail email id with
        | (.error f, s) => (.error f, s)
        | (.ok _, s) =>
          (.ok changed, { s with customers := s.customers.put changed }.releaseEmail c.email id)

/-- Remove a customer, whose orders are kept. -/
def deleteCustomer (s : Store) (id : Id) : Outcome Store Unit :=
  match s.customers.find? id with
  | none => (.error (.missing .customer), s)
  | some c => (.ok (), { s with customers := s.customers.erase id }.releaseEmail c.email id)

/-- Add a customer without any checks but that the address is free; tell whether it was. -/
def insertCustomer (s : Store) (c : Customer) : Bool × Store :=
  match s.reserveEmail c.email c.id with
  | (.error _, s) => (false, s)
  | (.ok _, s) => (true, { s with customers := s.customers.put c })

/-! ## Lists of customers -/

/-- Which customers are wanted, and which page of them. -/
structure CustomerQuery where
  page : Option Nat
  limit : Option Nat
  /-- A text to be found in the name, the address for mail or the telephone number. -/
  search : Option String
  status : Option Customer.Status

namespace CustomerQuery

/-- The text to be found in small letters, if it is not blank. -/
def needle? (q : CustomerQuery) : Option String :=
  (q.search.filter fun s ↦ !Text.isBlankText s).map fun s ↦ Text.lower (Text.trim s)

/-- A text in small letters is found in a customer. The address for mail is in small letters. -/
def finds (needle : String) (c : Customer) : Bool :=
  Text.containsLower c.name needle || Text.contains c.email needle ||
    c.phone.any (Text.containsLower · needle)

def accepts (q : CustomerQuery) (c : Customer) : Bool :=
  q.status.all (c.status == ·) && q.needle?.all (finds · c)

open Json Json.Fields in
def ofJson? : Json → Option CustomerQuery := record? do
  return { page := ← Fields.optional "page" fun j ↦ j.count?.map UInt64.toNat
           limit := ← Fields.optional "limit" fun j ↦ j.count?.map UInt64.toNat
           search := ← Fields.optional "search" text?
           status := ← Fields.optional "status" Customer.Status.ofJson? }

end CustomerQuery

/-- The wanted customers, newest first. -/
def customersFor (s : Store) (q : CustomerQuery) : List Customer :=
  (s.customers.rows.filter q.accepts).mergeSort Customer.newerFirst

/-- The wanted page of the wanted customers. -/
def listCustomers (s : Store) (q : CustomerQuery) : Except Fault (Paging.Page Customer) :=
  (Paging.Request.of q.page q.limit).map (·.slice (s.customersFor q))

/-! ## A customer with orders -/

/-- How many orders are shown beside a customer. -/
def recentOrderCount : Nat := 10

/-- A customer and the latest orders. -/
structure CustomerDetail where
  customer : Customer
  /-- The latest orders, the last one first. -/
  recentOrders : List Order

/-- Later orders first, whatever their identities. -/
def laterOrder (a b : Order) : Bool := b.orderDate.le a.orderDate

def customerDetail (s : Store) (id : Id) : Except Fault CustomerDetail :=
  (s.customer id).map fun c ↦
    ⟨c, ((s.orders.rows.filter (·.customerId == id)).mergeSort laterOrder).take recentOrderCount⟩

end Outreach.Store
