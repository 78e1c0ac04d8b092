import Outreach.Order.Basic

/-!
# Orders as values

The record of an order is written and read with all its fields; only the address and the date of
delivery may be left out.
-/

namespace Outreach.Order

open Calendar Json Json.Fields

namespace Status

def name : Status → String
  | .pending => "pending"
  | .confirmed => "confirmed"
  | .shipped => "shipped"
  | .delivered => "delivered"
  | .cancelled => "cancelled"
  | .refunded => "refunded"

def ofName? : String → Option Status
  | "pending" => some .pending
  | "confirmed" => some .confirmed
  | "shipped" => some .shipped
  | "delivered" => some .delivered
  | "cancelled" => some .cancelled
  | "refunded" => some .refunded
  | _ => none

@[simp] theorem ofName?_name (s : Status) : ofName? s.name = some s := by cases s <;> rfl

def toJson (s : Status) : Json := .text s.name

def ofJson? : Json → Option Status := choice? ofName?

end Status

namespace Payment

def name : Payment → String
  | .pending => "pending"
  | .paid => "paid"
  | .failed => "failed"
  | .refunded => "refunded"

def ofName? : String → Option Payment
  | "pending" => some .pending
  | "paid" => some .paid
  | "failed" => some .failed
  | "refunded" => some .refunded
  | _ => none

@[simp] theorem ofName?_name (p : Payment) : ofName? p.name = some p := by cases p <;> rfl

def toJson (p : Payment) : Json := .text p.name

def ofJson? : Json → Option Payment := choice? ofName?

end Payment

namespace Method

def name : Method → String
  | .creditCard => "credit_card"
  | .debitCard => "debit_card"
  | .upi => "upi"
  | .netBanking => "net_banking"
  | .cashOnDelivery => "cash_on_delivery"

def ofName? : String → Option Method
  | "credit_card" => some .creditCard
  | "debit_card" => some .debitCard
  | "upi" => some .upi
  | "net_banking" => some .netBanking
  | "cash_on_delivery" => some .cashOnDelivery
  | _ => none

@[simp] theorem ofName?_name (m : Method) : ofName? m.name = some m := by cases m <;> rfl

def toJson (m : Method) : Json := .text m.name

def ofJson? : Json → Option Method := choice? ofName?

end Method

def quantity? (j : Json) : Option UInt32 := (j.countUpTo? 0xffffffff).map (·.toUInt32)

def Item.toJson (i : Item) : Json :=
  .object [("productName", .text i.productName), ("quantity", ofSize i.quantity.toNat),
    ("price", ofFloat i.price), ("total", ofFloat i.total)]

def Item.ofJson? : Json → Option Item := record? do
  return { productName := ← required "productName" text?
           quantity := ← required "quantity" quantity?
           price := ← required "price" float?
           total := ← required "total" float? }

def toJson (o : Order) : Json :=
  .object [("id", o.id.toJson), ("customerId", o.customerId.toJson),
    ("orderNumber", .text o.orderNumber), ("items", ofList Item.toJson o.items),
    ("totalAmount", ofFloat o.totalAmount), ("status", o.status.toJson),
    ("paymentStatus", o.paymentStatus.toJson), ("paymentMethod", o.paymentMethod.toJson),
    ("shippingAddress", ofOption Address.toJson o.shippingAddress),
    ("orderDate", o.orderDate.toJson), ("deliveryDate", ofOption Instant.toJson o.deliveryDate),
    ("createdAt", o.createdAt.toJson), ("updatedAt", o.updatedAt.toJson)]

def ofJson? : Json → Option Order := record? do
  return { id := ← required "id" Id.ofJson?
           customerId := ← required "customerId" Id.ofJson?
           orderNumber := ← required "orderNumber" text?
           items := ← required "items" (list? Item.ofJson?)
           totalAmount := ← required "totalAmount" float?
           status := ← required "status" Status.ofJson?
           paymentStatus := ← required "paymentStatus" Payment.ofJson?
           paymentMethod := ← required "paymentMethod" Method.ofJson?
           shippingAddress := ← Fields.optional "shippingAddress" Address.ofJson?
           orderDate := ← required "orderDate" Instant.ofJson?
           deliveryDate := ← Fields.optional "deliveryDate" Instant.ofJson?
           createdAt := ← required "createdAt" Instant.ofJson?
           updatedAt := ← required "updatedAt" Instant.ofJson? }

end Outreach.Order
