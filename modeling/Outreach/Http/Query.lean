import Outreach.Http.Request
import Outreach.Store.Campaigns
import Outreach.Store.Customers
import Outreach.Store.Orders

/-!
# Query strings

The part of a target behind the question mark: names with values. A plus sign is a space, and names
that are not asked for do not matter; one that is asked for must not be there twice.
-/

namespace Outreach.Http.Query

open Text

/-- Plus signs made spaces, percent-coding undone. -/
def decoded (cs : List Char) : String :=
  String.ofList (ofBytesLossy (percentDecoded (cs.map fun c ↦ if c = '+' then ' ' else c)))

/-- A name and its value, which is behind the first equals sign. -/
def pairOf (cs : List Char) : String × String :=
  (decoded (cs.takeWhile (· != '=')), decoded ((cs.dropWhile (· != '=')).drop 1))

/-- The parts of a text between ampersands. -/
def parts : List Char → List (List Char)
  | [] => [[]]
  | c :: cs =>
    if c = '&' then [] :: parts cs
    else match parts cs with
      | p :: ps => (c :: p) :: ps
      | [] => [[c]]

/-- The names with their values, in order. -/
def pairs (query : List Char) : List (String × String) :=
  ((parts query).filter fun p ↦ !p.isEmpty).map pairOf

variable {α : Type}

/-- The value of a name, read by `read`; nothing if the name is not there. -/
def value? (ps : List (String × String)) (name : String) (read : String → Option α) :
    Option (Option α) :=
  match ps.filter (·.1 == name) with
  | [] => some none
  | [p] => (read p.2).map some
  | _ => none

/-- A size; a plus sign in front does not matter. -/
def size? (s : String) : Option Nat :=
  let digits : List Char → Option Nat := fun cs ↦ (nat? cs).filter (· < 0x10000000000000000)
  match s.toList with
  | '+' :: cs => digits cs
  | cs => digits cs

def customers? (query : List Char) : Option Store.CustomerQuery := do
  let ps := pairs query
  return { page := ← value? ps "page" size?
           limit := ← value? ps "limit" size?
           search := ← value? ps "search" some
           status := ← value? ps "status" Customer.Status.ofName? }

def orders? (query : List Char) : Option Store.OrderQuery := do
  let ps := pairs query
  return { page := ← value? ps "page" size?
           limit := ← value? ps "limit" size?
           status := ← value? ps "status" Order.Status.ofName?
           customerId := ← value? ps "customerId" Id.ofText? }

def campaigns? (query : List Char) : Option Store.CampaignQuery := do
  let ps := pairs query
  return { page := ← value? ps "page" size?
           limit := ← value? ps "limit" size?
           status := ← value? ps "status" Campaign.Status.ofName? }

end Outreach.Http.Query
