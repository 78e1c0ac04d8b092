import Outreach.Calendar.Writing
import Outreach.Customer.Basic

/-!
# Customers as values

Writing a customer names every field; reading one asks only for the fields that have no natural
default.
-/

namespace Outreach

open Calendar Json Json.Fields

namespace Customer.Status

def name : Status → String
  | .active => "active"
  | .inactive => "inactive"
  | .blocked => "blocked"

def ofName? : String → Option Status
  | "active" => some .active
  | "inactive" => some .inactive
  | "blocked" => some .blocked
  | _ => none

@[simp] theorem ofName?_name (s : Status) : ofName? s.name = some s := by cases s <;> rfl

def toJson (s : Status) : Json := .text s.name

def ofJson? : Json → Option Status := choice? ofName?

end Customer.Status

def Address.toJson (a : Address) : Json :=
  .object [("street", ofText? a.street), ("city", ofText? a.city), ("state", ofText? a.state),
    ("zipCode", ofText? a.zipCode), ("country", ofText? a.country)]

def Address.ofJson? : Json → Option Address := record? do
  return { street := ← optionalD "street" text?
           city := ← optionalD "city" text?
           state := ← optionalD "state" text?
           zipCode := ← optionalD "zipCode" text?
           country := ← optionalD "country" text? }

def Preferences.toJson (p : Preferences) : Json :=
  .object [("emailMarketing", .bool p.emailMarketing), ("smsMarketing", .bool p.smsMarketing)]

def Preferences.ofJson? : Json → Option Preferences := record? do
  return { emailMarketing := ← withDefault "emailMarketing" true bool?
           smsMarketing := ← withDefault "smsMarketing" false bool? }

namespace Customer

def toJson (c : Customer) : Json :=
  .object [("id", c.id.toJson), ("name", .text c.name), ("email", .text c.email),
    ("phone", ofText? c.phone), ("totalSpending", ofFloat c.totalSpending),
    ("visits", ofCount c.visits), ("lastPurchaseDate", ofOption Instant.toJson c.lastPurchaseDate),
    ("registrationDate", c.registrationDate.toJson), ("status", c.status.toJson),
    ("tags", ofList .text c.tags), ("address", c.address.toJson),
    ("preferences", c.preferences.toJson), ("createdAt", c.createdAt.toJson),
    ("updatedAt", c.updatedAt.toJson)]

def ofJson? : Json → Option Customer := record? do
  return { id := ← required "id" Id.ofJson?
           name := ← required "name" text?
           email := ← required "email" text?
           phone := ← optionalD "phone" text?
           totalSpending := ← withDefault "totalSpending" 0.0 float?
           visits := ← withDefault "visits" 0 count?
           lastPurchaseDate := ← optionalD "lastPurchaseDate" Instant.ofJson?
           registrationDate := ← required "registrationDate" Instant.ofJson?
           status := ← withDefault "status" .active Status.ofJson?
           tags := ← withDefault "tags" [] (list? text?)
           address := ← withDefault "address" .empty Address.ofJson?
           preferences := ← withDefault "preferences" .usual Preferences.ofJson?
           createdAt := ← required "createdAt" Instant.ofJson?
           updatedAt := ← required "updatedAt" Instant.ofJson? }

def Summary.toJson (s : Summary) : Json :=
  .object [("id", s.id.toJson), ("name", .text s.name), ("email", .text s.email),
    ("totalSpending", ofFloat s.totalSpending), ("visits", ofCount s.visits),
    ("lastPurchaseDate", ofOption Instant.toJson s.lastPurchaseDate)]

end Customer

end Outreach
