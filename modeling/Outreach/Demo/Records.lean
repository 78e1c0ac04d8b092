import Outreach.Calendar.Writing
import Outreach.Campaign.Basic
import Outreach.Customer.Request
import Outreach.Rule.Basic
import Outreach.Store.Orders

/-!
# Records for demonstration

Customers, orders and campaigns with which an empty store is filled. Names, messages and rules are
fixed; amounts, dates and the like are thrown: `chance n` is the `n`-th throw, any natural number.
-/

namespace Outreach.Demo

open Calendar

/-- Throws of a die with any number of sides. -/
abbrev Chance := Nat → Nat

/-- A throw brought between two bounds, the second of which is left out. -/
def between (low high : Nat) (throw : Nat) : Nat := low + throw % (high - low)

/-- One of a list, or a default if it is empty. -/
def oneOf {α : Type} (xs : List α) (default : α) (throw : Nat) : α :=
  (xs[throw % xs.length]?).getD default

/-- An instant a number of seconds earlier. -/
def earlier (now : Instant) (secs : Nat) : Instant := (now.addSeconds? (-(secs : Int))).getD now

/-- An instant a number of days earlier. -/
def daysAgo (now : Instant) (days : Nat) : Instant := earlier now (days * 86400)

/-! ## Customers -/

def names : List String :=
  ["Rajesh Kumar", "Priya Sharma", "Amit Patel", "Sneha Gupta", "Vikram Singh", "Anita Verma",
   "Rohit Agarwal", "Kavya Reddy", "Suresh Nair", "Meera Joshi", "Arjun Mehta", "Divya Iyer",
   "Karan Malhotra", "Ritu Bansal", "Sanjay Rao", "Pooja Saxena", "Nikhil Jain", "Shreya Kapoor",
   "Manish Tiwari", "Nisha Agrawal"]

def cities : List String :=
  ["Mumbai", "Delhi", "Bangalore", "Chennai", "Kolkata", "Pune", "Hyderabad"]

/-- The address for mail of a name: in small letters, with a point for the first space. -/
def emailOf (name : String) : String :=
  let cs := Text.lowerChars name.toList
  String.ofList
    (cs.takeWhile (· != ' ') ++ '.' :: (cs.dropWhile (· != ' ')).drop 1) ++ "@example.com"

def customer (name : String) (id : Id) (now : Instant) (chance : Chance) : Customer :=
  let registered := earlier now (between 0 31536000 (chance 0))
  { id
    name
    email := emailOf name
    phone := some ("+91" ++ toString (between 1000000000 10000000000 (chance 1)))
    totalSpending := Decimal.ofCount (between 0 100000 (chance 2))
    visits := (between 1 51 (chance 3)).toUInt64
    lastPurchaseDate := some (earlier now (between 0 15552000 (chance 4)))
    registrationDate := registered
    status := if chance 5 % 10 < 9 then .active else .inactive
    tags := ["customer", if chance 6 % 2 = 0 then "premium" else "regular"]
    address := { Address.empty with
      city := some (oneOf cities "" (chance 7))
      state := some "India"
      country := some "India" }
    preferences := .usual
    createdAt := registered
    updatedAt := now }

/-! ## Orders -/

def products : List String :=
  ["Smartphone", "Laptop", "Headphones", "Watch", "Tablet", "Camera", "Speaker", "Keyboard",
   "Mouse", "Monitor"]

def item (chance : Chance) : Order.Item :=
  let quantity := between 1 4 (chance 0)
  let price := Decimal.ofCount (between 1000 51000 (chance 1))
  ⟨oneOf products "" (chance 2), quantity.toUInt32, price, Decimal.ofCount quantity * price⟩

/-- An order, which does not count for its customer. -/
def order (id customerId : Id) (count : UInt64) (now : Instant) (chance : Chance) : Order :=
  let items := (List.range (between 1 4 (chance 0))).map fun n ↦ item fun k ↦ chance (8 * n + k + 8)
  let date := earlier now (between 0 7776000 (chance 1))
  { id
    customerId
    orderNumber := Store.orderNumber now count
    items
    totalAmount := Decimal.sum (items.map (·.total))
    status := oneOf [.pending, .confirmed, .shipped, .delivered, .cancelled] .pending (chance 2)
    paymentStatus := oneOf [.pending, .paid, .failed] .pending (chance 3)
    paymentMethod := oneOf [.creditCard, .debitCard, .upi, .netBanking] .creditCard (chance 4)
    shippingAddress := none
    orderDate := date
    deliveryDate := none
    createdAt := date
    updatedAt := date }

/-! ## Campaigns -/

/-- What sets a campaign apart. -/
structure Theme where
  name : String
  description : String
  subject : String
  content : String
  rules : List Rule
  /-- The figures of its run, if it has been completed. -/
  stats : Option Campaign.Stats

def themes (now : Instant) : List Theme :=
  let day (ago : Nat) : Rule.Value := .text (String.ofList (daysAgo now ago).date.chars)
  [{ name := "Welcome New Customers"
     description := "Welcome campaign for new customers"
     subject := "Welcome to our store!"
     content := "Thank you for joining us. Enjoy 10% off your first purchase!"
     rules := Rule.Builder.rule [] "registrationDate" ">" (day 30)
     stats := some ⟨156, 148, 89, 23, 8, 0⟩ },
   { name := "High Spender Appreciation"
     description := "Thank high-value customers"
     subject := "Thank you for being a valued customer"
     content := "We appreciate your loyalty. Here's a special 15% discount just for you!"
     rules := Rule.Builder.spendingAbove [] 50000.0
     stats := some ⟨45, 44, 32, 12, 1, 0⟩ },
   { name := "Win Back Inactive Customers"
     description := "Re-engage customers who haven't purchased recently"
     subject := "We miss you! Come back for exclusive offers"
     content := "It's been a while since your last purchase. Here's 20% off to welcome you back!"
     rules := Rule.Builder.rule [] "lastPurchaseDate" "<" (day 90)
     stats := none }]

/-- A campaign that was made some time ago and has been completed or is a draft. -/
def campaign (t : Theme) (id : Id) (size : UInt64) (admin : User) (made : Instant) : Campaign where
  id
  name := t.name
  description := some t.description
  channel := .email
  message := ⟨some t.subject, t.content, none⟩
  audienceRules := t.rules
  audienceSize := size
  status := if t.stats.isSome then .completed else .draft
  scheduledAt := none
  sentAt := t.stats.bind fun _ ↦ made.addSeconds? 3600
  completedAt := t.stats.bind fun _ ↦ made.addSeconds? 7200
  stats := t.stats.getD .zero
  createdBy := admin.id
  createdAt := made
  updatedAt := made

end Outreach.Demo
