import Outreach.Calendar.Instant
import Outreach.Id

/-!
# Customers

The record of a customer and the compact view of it that lists show.
-/

namespace Outreach

open Calendar

/-- Whether a customer is dealt with. Only active customers are ever part of an audience. -/
inductive Customer.Status where
  | active
  | inactive
  | blocked
deriving DecidableEq, Repr

/-- Where a customer lives, or an order goes. -/
structure Address where
  street : Option String
  city : Option String
  state : Option String
  zipCode : Option String
  country : Option String
deriving DecidableEq

def Address.empty : Address := ⟨none, none, none, none, none⟩

/-- The channels on which a customer wants to be written to. -/
structure Preferences where
  emailMarketing : Bool
  smsMarketing : Bool
deriving DecidableEq

/-- Mail, but no short messages. -/
def Preferences.usual : Preferences := ⟨true, false⟩

structure Customer where
  id : Id
  name : String
  /-- The address for mail, in its normal form. -/
  email : String
  phone : Option String
  totalSpending : Float
  /-- How often the customer has ordered so far. -/
  visits : UInt64
  lastPurchaseDate : Option Instant
  registrationDate : Instant
  status : Customer.Status
  tags : List String
  address : Address
  preferences : Preferences
  createdAt : Instant
  updatedAt : Instant
deriving DecidableEq

namespace Customer

def isActive (c : Customer) : Bool := c.status = .active

/-- What lists show of a customer. -/
structure Summary where
  id : Id
  name : String
  email : String
  totalSpending : Float
  visits : UInt64
  lastPurchaseDate : Option Instant
deriving DecidableEq

def summary (c : Customer) : Summary :=
  ⟨c.id, c.name, c.email, c.totalSpending, c.visits, c.lastPurchaseDate⟩

/-- Older records first; the identity decides between records of one instant. -/
def olderFirst (a b : Customer) : Bool :=
  a.createdAt.lt b.createdAt || a.createdAt == b.createdAt && a.id.le b.id

def newerFirst (a b : Customer) : Bool := b.olderFirst a

end Customer

end Outreach
