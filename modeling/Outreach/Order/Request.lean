import Outreach.Decimal.Binary
import Outreach.Fault
import Outreach.Order.Json
import Outreach.Text.Blank

/-!
# Requests for orders

What is asked for when an order is placed, and its pricing: every line is checked and its total
computed, and the stated total of the order has to be their sum up to a hundredth.
-/

namespace Outreach.Order

open Calendar Json Json.Fields

/-- A line that is asked for. -/
structure Item.New where
  productName : String
  quantity : UInt32
  price : Float

/-- An order to be placed. -/
structure New where
  customerId : Id
  items : List Item.New
  totalAmount : Float
  status : Status
  paymentStatus : Payment
  paymentMethod : Method
  shippingAddress : Option Address
  /-- When it was placed, if not just now. -/
  orderDate : Option Instant

/-! ## Pricing -/

/-- How far the stated total may be from the sum of the lines. -/
def tolerance : Float := 0.01

/-- A finite amount that is not negative. -/
def isAmount (x : Float) : Bool := x.isFinite && !(x < 0.0)

/-- A line with its total: the product is named, then the quantity and the price are checked. -/
def Item.New.priced (i : Item.New) : Except Fault Item := do
  if Text.isBlankText i.productName then throw .productBlank
  if i.quantity < 1 then throw .quantityZero
  if !isAmount i.price then throw .priceNegative
  return ⟨Text.trim i.productName, i.quantity, i.price, i.quantity.toUInt64.toFloat * i.price⟩

/-- The lines of an order with their totals. -/
def New.pricedItems (r : New) : Except Fault (List Item) := do
  if r.items.isEmpty then throw .noItems
  if !isAmount r.totalAmount then throw .totalNegative
  let items ← r.items.mapM Item.New.priced
  if tolerance < (Decimal.sum (items.map (·.total)) - r.totalAmount).abs then throw .totalMismatch
  return items

/-! ## Exchange -/

def Item.New.ofJson? : Json → Option Item.New := record? do
  return { productName := ← required "productName" text?
           quantity := ← required "quantity" quantity?
           price := ← required "price" float? }

/-- The order to be placed that a value describes. -/
def New.ofJson? : Json → Option New := record? do
  return { customerId := ← required "customerId" Id.ofJson?
           items := ← required "items" (list? Item.New.ofJson?)
           totalAmount := ← required "totalAmount" float?
           status := ← withDefault "status" .pending Status.ofJson?
           paymentStatus := ← withDefault "paymentStatus" .pending Payment.ofJson?
           paymentMethod := ← withDefault "paymentMethod" .creditCard Method.ofJson?
           shippingAddress := ← optionalD "shippingAddress" Address.ofJson?
           orderDate := ← optionalD "orderDate" Instant.ofJson? }

end Outreach.Order
