import Outreach.Store.Customers
import Outreach.Store.Orders

/-!
# Figures about customers and orders

How many customers and orders there are, the most important of them, and the revenue of the last
half year by month.
-/

namespace Outreach.Store

open Calendar Json

def listSize : Nat := 5

/-! ## Customers -/

/-- A key by which doubles of either sign are put in order as natural numbers. -/
def floatRank (x : Float) : Nat :=
  let bits := x.toBits.toNat
  if 0x8000000000000000 ≤ bits then 0xffffffffffffffff - bits else 0x8000000000000000 + bits

/-- Those who have spent more come first. -/
def spendsMore (a b : Customer) : Bool := floatRank b.totalSpending ≤ floatRank a.totalSpending

def cameLater (a b : Customer) : Bool := b.createdAt.le a.createdAt

structure CustomerFigures where
  total : Nat
  active : Nat
  inactive : Nat
  topSpenders : List Customer.Summary
  recent : List Customer.Summary

def customerFigures (s : Store) : CustomerFigures :=
  let cs := s.customers.rows
  { total := cs.length
    active := cs.countP (·.status == .active)
    inactive := cs.countP (·.status == .inactive)
    topSpenders := ((cs.mergeSort spendsMore).take listSize).map Customer.summary
    recent := ((cs.mergeSort cameLater).take listSize).map Customer.summary }

def CustomerFigures.toJson (f : CustomerFigures) : Json :=
  .object [("overview", .object [("totalCustomers", ofSize f.total),
      ("activeCustomers", ofSize f.active), ("inactiveCustomers", ofSize f.inactive)]),
    ("topSpenders", ofList Customer.Summary.toJson f.topSpenders),
    ("recentCustomers", ofList Customer.Summary.toJson f.recent)]

/-! ## Orders -/

/-- The revenue of a month. -/
structure MonthlyRevenue where
  year : Int
  month : Nat
  revenue : Float
  orders : Nat

def MonthlyRevenue.before (m : MonthlyRevenue) (year : Int) (month : Nat) : Bool :=
  m.year < year || m.year == year && m.month < month

/-- Add an order to its month, in a list of months from the earliest to the latest. -/
def addToMonth (year : Int) (month : Nat) (amount : Float) :
    List MonthlyRevenue → List MonthlyRevenue
  | [] => [⟨year, month, 0.0 + amount, 1⟩]
  | m :: ms =>
    if m.before year month then m :: addToMonth year month amount ms
    else if m.year = year ∧ m.month = month then
      { m with revenue := m.revenue + amount, orders := m.orders + 1 } :: ms
    else ⟨year, month, 0.0 + amount, 1⟩ :: m :: ms

/-- The revenue of a list of orders by month. -/
def revenueByMonth (orders : List Order) : List MonthlyRevenue :=
  orders.foldl (fun ms o ↦ addToMonth o.orderDate.date.year o.orderDate.date.month o.totalAmount ms) []

/-- How many months the revenue is told for. -/
def revenueMonths : Nat := 6

structure OrderFigures where
  total : Nat
  pending : Nat
  delivered : Nat
  /-- The sum of those that count as revenue. -/
  revenue : Float
  recent : List Order
  monthly : List MonthlyRevenue

/-- The figures about the orders at some time. -/
def orderFigures (s : Store) (now : Instant) : OrderFigures :=
  let os := s.orders.rows
  let since := (now.minusMonths? revenueMonths).getD now
  let fulfilled := os.filter (·.status.isFulfilled)
  { total := os.length
    pending := os.countP (·.status == .pending)
    delivered := os.countP (·.status == .delivered)
    revenue := Decimal.sum (fulfilled.map (·.totalAmount))
    recent := (os.mergeSort laterOrder).take listSize
    monthly := revenueByMonth (fulfilled.filter fun o ↦ since.le o.orderDate) }

def yearJson (year : Int) : Json :=
  .number (if 0 ≤ year then .natural year.toNat.toUInt64 else .negative year.natAbs.toUInt64)

/-- The value of the revenue of a month. -/
def MonthlyRevenue.toJson (m : MonthlyRevenue) : Json :=
  .object [("year", yearJson m.year), ("month", ofSize m.month), ("revenue", ofFloat m.revenue),
    ("orders", ofSize m.orders)]

def OrderFigures.toJson (f : OrderFigures) : Json :=
  .object [("overview", .object [("totalOrders", ofSize f.total), ("pendingOrders", ofSize f.pending),
      ("deliveredOrders", ofSize f.delivered), ("totalRevenue", ofFloat f.revenue)]),
    ("recentOrders", ofList Order.toJson f.recent),
    ("monthlyRevenue", ofList MonthlyRevenue.toJson f.monthly)]

/-- The value of a customer with the latest orders. -/
def CustomerDetail.toJson (d : CustomerDetail) : Json :=
  .object [("customer", d.customer.toJson), ("recentOrders", ofList Order.toJson d.recentOrders)]

end Outreach.Store
