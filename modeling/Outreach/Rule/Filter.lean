import Outreach.Rule.Compile

/-!
# From rule lists to filters

The conditions of a list of rules fall into two groups without precedence or nesting: those that all
have to hold, and those of which one has to hold. The first condition belongs to the former however
its rule is tagged, since there is nothing before it to be combined with.
-/

namespace Outreach.Rule

/-- Which customers a list of rules lets through. -/
inductive Filter where
  | everyone
  | all (conditions : List Condition)
  | any (conditions : List Condition)
  /-- Customers that satisfy all of the former and one of the latter. -/
  | allWithAny (all any : List Condition)
deriving DecidableEq

namespace Filter

def accepts (customer : Customer) : Filter → Bool
  | .everyone => true
  | .all cs => cs.all (·.accepts customer)
  | .any cs => cs.any (·.accepts customer)
  | .allWithAny cs ds => cs.all (·.accepts customer) && ds.any (·.accepts customer)

/-- The filter of two groups of conditions, of which an empty one asks for nothing. -/
def ofGroups : List Condition → List Condition → Filter
  | [], [] => .everyone
  | cs, [] => .all cs
  | [], ds => .any ds
  | cs, ds => .allWithAny cs ds

end Filter

/-- The conditions of a list of rules, each with the tag of its rule. -/
def contributions (rules : List Rule) : List (Logic × Condition) :=
  rules.filterMap fun r ↦ r.compile.map (r.logic, ·)

def tagged (l : Logic) (cs : List (Logic × Condition)) : List Condition :=
  (cs.filter (·.1 == l)).map (·.2)

/-- The filter of a list of rules. -/
def group (rules : List Rule) : Filter :=
  match contributions rules with
  | [] => .everyone
  | (_, c) :: cs => .ofGroups (c :: tagged .and cs) (tagged .or cs)

end Outreach.Rule
