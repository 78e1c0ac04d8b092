import Outreach.Order.Request
import Outreach.Paging
import Outreach.Store.Basic

/-!
# Orders in the store

Placing, moving, removing and listing orders. A placed order adds to what its customer has spent and
to the visits; a removed one is taken out again, but never below zero.
-/

namespace Outreach.Store

open Calendar Text

/-! ## Single orders -/

def order (s : Store) (id : Id) : Except Fault Order :=
  match s.orders.find? id with
  | some o => .ok o
  | none => .error (.missing .order)

/-- The number of an order: the milliseconds of its time and its place in the sequence. -/
def orderNumber (now : Instant) (count : UInt64) : String :=
  String.ofList (['O', 'R', 'D', '-'] ++ decimalInt now.millis ++ '-' :: padded 4 count.toNat)

/-- The record of an order to be placed. -/
def newOrder (r : Order.New) (items : List Order.Item) (stamp : Stamp) (count : UInt64) : Order where
  id := stamp.id
  customerId := r.customerId
  orderNumber := orderNumber stamp.now count
  items
  totalAmount := r.totalAmount
  status := r.status
  paymentStatus := r.paymentStatus
  paymentMethod := r.paymentMethod
  shippingAddress := r.shippingAddress
  orderDate := r.orderDate.getD stamp.now
  deliveryDate := none
  createdAt := stamp.now
  updatedAt := stamp.now

@[simp] theorem newOrder_totalAmount (r : Order.New) (items : List Order.Item) (stamp : Stamp)
    (count : UInt64) : (newOrder r items stamp count).totalAmount = r.totalAmount := rfl

/-- The customer after an order of some amount has been placed, if there is room for one more visit. -/
def withOrder? (c : Customer) (amount : Float) (now : Instant) : Option Customer :=
  (Decimal.plus? c.visits 1).map fun visits ↦
    { c with
      totalSpending := c.totalSpending + amount
      visits
      lastPurchaseDate := some now
      updatedAt := now }

/-- The customer after an order of some amount has been removed. -/
def withoutOrder (c : Customer) (amount : Float) (now : Instant) : Customer :=
  { c with
    totalSpending := Decimal.atLeastZero (c.totalSpending - amount)
    visits := if c.visits = 0 then 0 else c.visits - 1
    updatedAt := now }

def createOrder (s : Store) (stamp : Stamp) (r : Order.New) : Outcome Store Order :=
  match r.pricedItems with
  | .error f => (.error f, s)
  | .ok items =>
    match s.customers.find? r.customerId with
    | none => (.error (.missing .customer), s)
    | some c =>
      let count := s.orderCount + 1
      let o := newOrder r items stamp count
      match withOrder? c o.totalAmount stamp.now with
      | none => (.error .countFull, s)
      | some c =>
        (.ok o, { s with
          orderCount := count
          customers := s.customers.put c
          orders := s.orders.put o })

/-- Move an order; one that is delivered keeps the time. -/
def updateOrderStatus (s : Store) (stamp : Stamp) (id : Id) (status : Order.Status) :
    Outcome Store Order :=
  match s.orders.find? id with
  | none => (.error (.missing .order), s)
  | some o =>
    let moved := { o with
      status
      deliveryDate := if status = .delivered then some stamp.now else o.deliveryDate
      updatedAt := stamp.now }
    (.ok moved, { s with orders := s.orders.put moved })

def deleteOrder (s : Store) (stamp : Stamp) (id : Id) : Outcome Store Unit :=
  match s.orders.find? id with
  | none => (.error (.missing .order), s)
  | some o =>
    let s := { s with orders := s.orders.erase id }
    match s.customers.find? o.customerId with
    | none => (.ok (), s)
    | some c =>
      (.ok (), { s with
        customers := s.customers.put (withoutOrder c o.totalAmount stamp.now) })

/-! ## Lists of orders -/

/-- Which orders are wanted, and which page of them. -/
structure OrderQuery where
  page : Option Nat
  limit : Option Nat
  status : Option Order.Status
  customerId : Option Id

namespace OrderQuery

def accepts (q : OrderQuery) (o : Order) : Bool :=
  q.status.all (o.status == ·) && q.customerId.all (o.customerId == ·)

open Json Json.Fields in
def ofJson? : Json → Option OrderQuery := record? do
  return { page := ← Fields.optional "page" fun j ↦ j.count?.map UInt64.toNat
           limit := ← Fields.optional "limit" fun j ↦ j.count?.map UInt64.toNat
           status := ← Fields.optional "status" Order.Status.ofJson?
           customerId := ← Fields.optional "customerId" Id.ofJson? }

end OrderQuery

/-- The wanted orders, the latest first. -/
def ordersFor (s : Store) (q : OrderQuery) : List Order :=
  (s.orders.rows.filter q.accepts).mergeSort Order.laterFirst

/-- The wanted page of the wanted orders. -/
def listOrders (s : Store) (q : OrderQuery) : Except Fault (Paging.Page Order) :=
  (Paging.Request.of q.page q.limit).map (·.slice (s.ordersFor q))

end Outreach.Store
