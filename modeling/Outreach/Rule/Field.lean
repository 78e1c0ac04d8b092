import Outreach.Customer.Json
import Outreach.Rule.Basic

/-!
# Fields of a customer

The fields that rules may name, the kind of each and its value in a record. A name that is none of
these is kept as an unknown field, which has no kind and no value.
-/

namespace Outreach.Rule

open Calendar

/-- A field by its name. -/
inductive Field where
  | name
  | email
  | phone
  | totalSpending
  | visits
  | lastPurchaseDate
  | registrationDate
  | status
  | tags
  | city
  | state
  | country
  | unknown (name : String)
deriving DecidableEq, Repr

/-- What a field holds. -/
inductive Field.Kind where
  | number
  | instant
  | text
  | textList
deriving DecidableEq, Repr

/-- What a field holds in one record. -/
inductive Field.Content where
  | number (x : Float)
  /-- An instant, if there is one. -/
  | instant (at? : Option Instant)
  /-- A text, if there is one. -/
  | text (s : Option String)
  | textList (items : List String)

namespace Field

def ofName : String → Field
  | "name" => .name
  | "email" => .email
  | "phone" => .phone
  | "totalSpending" => .totalSpending
  | "visits" => .visits
  | "lastPurchaseDate" => .lastPurchaseDate
  | "registrationDate" => .registrationDate
  | "status" => .status
  | "tags" => .tags
  | "address.city" => .city
  | "address.state" => .state
  | "address.country" => .country
  | other => .unknown other

def kind? : Field → Option Kind
  | .totalSpending | .visits => some .number
  | .lastPurchaseDate | .registrationDate => some .instant
  | .tags => some .textList
  | .unknown _ => none
  | _ => some .text

/-- The content of a field in a record. -/
def read? (f : Field) (c : Customer) : Option Content :=
  match f with
  | .name => some (.text (some c.name))
  | .email => some (.text (some c.email))
  | .phone => some (.text c.phone)
  | .totalSpending => some (.number c.totalSpending)
  | .visits => some (.number c.visits.toFloat)
  | .lastPurchaseDate => some (.instant c.lastPurchaseDate)
  | .registrationDate => some (.instant (some c.registrationDate))
  | .status => some (.text (some c.status.name))
  | .tags => some (.textList c.tags)
  | .city => some (.text c.address.city)
  | .state => some (.text c.address.state)
  | .country => some (.text c.address.country)
  | .unknown _ => none

/-- The kind that a content is of. -/
def Content.kind : Content → Kind
  | .number _ => .number
  | .instant _ => .instant
  | .text _ => .text
  | .textList _ => .textList

/-- What is read is of the kind that the field promises. -/
theorem kind_read? (f : Field) (c : Customer) : (f.read? c).map Content.kind = f.kind? := by
  cases f <;> rfl

end Field

end Outreach.Rule
