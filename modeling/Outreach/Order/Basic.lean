import Outreach.Customer.Json

/-!
# Orders

What a customer bought, how it is paid and where the order stands.
-/

namespace Outreach

open Calendar

/-- Where an order stands. -/
inductive Order.Status where
  | pending
  | confirmed
  | shipped
  | delivered
  | cancelled
  | refunded
deriving DecidableEq, Repr

/-- Where the payment of an order stands. -/
inductive Order.Payment where
  | pending
  | paid
  | failed
  | refunded
deriving DecidableEq, Repr

/-- How an order is paid. -/
inductive Order.Method where
  | creditCard
  | debitCard
  | upi
  | netBanking
  | cashOnDelivery
deriving DecidableEq, Repr

structure Order.Item where
  productName : String
  quantity : UInt32
  price : Float
  total : Float
deriving DecidableEq

structure Order where
  id : Id
  customerId : Id
  /-- The number by which people refer to the order. -/
  orderNumber : String
  items : List Order.Item
  totalAmount : Float
  status : Order.Status
  paymentStatus : Order.Payment
  paymentMethod : Order.Method
  shippingAddress : Option Address
  orderDate : Instant
  deliveryDate : Option Instant
  createdAt : Instant
  updatedAt : Instant
deriving DecidableEq

namespace Order

/-- Orders on the way or delivered count as revenue. -/
def Status.isFulfilled : Status → Bool
  | .shipped | .delivered => true
  | _ => false

/-- Later orders first; the identity decides between orders of one instant. -/
def laterFirst (a b : Order) : Bool :=
  b.orderDate.lt a.orderDate || a.orderDate == b.orderDate && b.id.le a.id

end Order

end Outreach
