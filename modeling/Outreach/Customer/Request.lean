import Outreach.Customer.Json
import Outreach.Fault
import Outreach.Text.Blank
import Outreach.Text.Lowercase

/-!
# Requests for customers

What is asked for when a customer is made or changed, the checks that come before, and the record
that results. An address for mail has to have the form of one, and customers are told apart by its
normal form.
-/

namespace Outreach.Customer

open Calendar Json Json.Fields Text

/-! ## Addresses for mail -/

/-- The parts before and after the first at sign, if there is one. -/
def splitAtSign : List Char → Option (List Char × List Char)
  | [] => none
  | c :: cs => if c = '@' then some ([], cs) else (splitAtSign cs).map fun (a, b) ↦ (c :: a, b)

/-- The part behind the at sign has a point inside, and none at its ends. -/
def isDomain (cs : List Char) : Bool :=
  cs.contains '.' && cs.head? != some '.' && cs.getLast? != some '.'

/-- The characters have the form of an address. -/
def isEmailChars (cs : List Char) : Bool :=
  match splitAtSign cs with
  | some (before, after) => !before.isEmpty && isDomain after && !cs.any isBlank
  | none => false

/-- A text has the form of an address, white space around it aside. -/
def isEmail (s : String) : Bool := isEmailChars (trimChars s.toList)

/-- The normal form of an address: in small letters and without white space around it. -/
def normalizeEmail (s : String) : String := lower (trim s)

/-! ## Requests -/

/-- A customer to be made. -/
structure New where
  name : String
  email : String
  phone : Option String
  totalSpending : Float
  visits : UInt64
  lastPurchaseDate : Option Instant
  /-- When the customer registered, if not just now. -/
  registrationDate : Option Instant
  status : Status
  tags : List String
  address : Address
  preferences : Preferences

/-- A change; what is not given stays. -/
structure Change where
  name : Option String
  email : Option String
  /-- A new telephone number; a blank one removes it. -/
  phone : Option String
  /-- A new sum of what has been spent. -/
  totalSpending : Option Float
  visits : Option UInt64
  lastPurchaseDate : Option Instant
  status : Option Status
  tags : Option (List String)
  address : Option Address
  preferences : Option Preferences

/-! ## Checks -/

def checkName (name : String) : Except Fault Unit := Fault.checkName .customerNameShort name

/-- An address for mail has the form of one. -/
def checkEmail (email : String) : Except Fault Unit :=
  if isEmail email then .ok () else .error .emailMalformed

/-- What has been spent is finite and not negative. -/
def checkSpending (x : Float) : Except Fault Unit :=
  if !x.isFinite || x < 0.0 then .error .spendingNegative else .ok ()

/-- The name, then the address for mail, then what has been spent. -/
def New.check (r : New) : Except Fault Unit := do
  checkName r.name
  checkEmail r.email
  checkSpending r.totalSpending

/-- The name, then the address for mail, then what has been spent, as far as they are given. -/
def Change.check (r : Change) : Except Fault Unit := do
  r.name.forM checkName
  r.email.forM checkEmail
  r.totalSpending.forM checkSpending

/-! ## Records -/

/-- A telephone number without white space around it; none if nothing is left. -/
def phoneOf (phone : String) : Option String :=
  if isBlankText phone then none else some (trim phone)

/-- The record of a customer to be made. -/
def New.customer (r : New) (id : Id) (now : Instant) : Customer where
  id
  name := trim r.name
  email := normalizeEmail r.email
  phone := r.phone.bind phoneOf
  totalSpending := r.totalSpending
  visits := r.visits
  lastPurchaseDate := r.lastPurchaseDate
  registrationDate := r.registrationDate.getD now
  status := r.status
  tags := r.tags
  address := r.address
  preferences := r.preferences
  createdAt := now
  updatedAt := now

/-- The address that a change gives to a customer who has another. -/
def Change.newEmail? (r : Change) (c : Customer) : Option String :=
  (r.email.map normalizeEmail).filter (· != c.email)

def Change.apply (r : Change) (c : Customer) (now : Instant) : Customer :=
  { c with
    name := (r.name.map trim).getD c.name
    email := (r.newEmail? c).getD c.email
    phone := match r.phone with
      | some phone => phoneOf phone
      | none => c.phone
    totalSpending := r.totalSpending.getD c.totalSpending
    visits := r.visits.getD c.visits
    lastPurchaseDate := r.lastPurchaseDate.or c.lastPurchaseDate
    status := r.status.getD c.status
    tags := r.tags.getD c.tags
    address := r.address.getD c.address
    preferences := r.preferences.getD c.preferences
    updatedAt := now }

/-! ## Exchange -/

/-- The customer to be made that a value describes. -/
def New.ofJson? : Json → Option New := record? do
  return { name := ← required "name" text?
           email := ← required "email" text?
           phone := ← optionalD "phone" text?
           totalSpending := ← withDefault "totalSpending" 0.0 float?
           visits := ← withDefault "visits" 0 count?
           lastPurchaseDate := ← optionalD "lastPurchaseDate" Instant.ofJson?
           registrationDate := ← optionalD "registrationDate" Instant.ofJson?
           status := ← withDefault "status" .active Status.ofJson?
           tags := ← withDefault "tags" [] (list? text?)
           address := ← withDefault "address" .empty Address.ofJson?
           preferences := ← withDefault "preferences" .usual Preferences.ofJson? }

def Change.ofJson? : Json → Option Change := record? do
  return { name := ← Fields.optional "name" text?
           email := ← Fields.optional "email" text?
           phone := ← Fields.optional "phone" text?
           totalSpending := ← Fields.optional "totalSpending" float?
           visits := ← Fields.optional "visits" count?
           lastPurchaseDate := ← Fields.optional "lastPurchaseDate" Instant.ofJson?
           status := ← Fields.optional "status" Status.ofJson?
           tags := ← Fields.optional "tags" (list? text?)
           address := ← Fields.optional "address" Address.ofJson?
           preferences := ← Fields.optional "preferences" Preferences.ofJson? }

end Outreach.Customer
