import Outreach.Rule.Filter

/-!
# Audiences

The audience of a list of rules among customers: the active ones that its filter lets through, from
the oldest record to the newest.
-/

namespace Outreach.Audience

/-- A customer belongs to the audience of a filter. -/
def admits (f : Rule.Filter) (c : Customer) : Bool := c.isActive && f.accepts c

/-- The audience of a list of rules. -/
def evaluate (customers : List Customer) (rules : List Rule) : List Customer :=
  (customers.filter (admits (Rule.group rules))).mergeSort Customer.olderFirst

/-- The number of customers in the audience, counted without putting it in order. -/
def size (customers : List Customer) (rules : List Rule) : Nat :=
  customers.countP (admits (Rule.group rules))

/-- The compact views of the first customers of an audience. -/
def sample (n : Nat) (audience : List Customer) : List Customer.Summary :=
  (audience.take n).map Customer.summary

/-- How many customers are shown as a sample. -/
structure SampleSizes where
  preview : Nat
  insights : Nat
deriving DecidableEq

/-- The size of an audience and the customers it begins with. -/
structure Preview where
  size : Nat
  sample : List Customer.Summary

/-- The preview of the audience of a list of rules. -/
def preview (sizes : SampleSizes) (customers : List Customer) (rules : List Rule) : Preview :=
  let audience := evaluate customers rules
  ⟨audience.length, sample sizes.preview audience⟩

def Preview.toJson (p : Preview) : Json :=
  .object [("audienceSize", .ofSize p.size),
    ("sampleCustomers", .ofList Customer.Summary.toJson p.sample)]

end Outreach.Audience
