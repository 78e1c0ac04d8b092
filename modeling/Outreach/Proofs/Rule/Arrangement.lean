import Mathlib.Data.List.Perm.Basic
import Outreach.Proofs.Rule.Acceptance

/-!
# The arrangement of rules

Of how a list of rules is arranged, only one thing matters: which rule comes first of those that
compare something. Rules without an operator may stand anywhere, the tag of that first rule is not
looked at, and the rules behind it may come in any order.
-/

namespace Outreach.Rule

/-- The second list is the first one with rules strewn in that have no operator: in front, between
and behind, and any number of them. -/
inductive Strewn : List Rule → List Rule → Prop
  | nil : Strewn [] []
  /-- Both lists go on with the same rule. -/
  | own (r : Rule) {rules more : List Rule} (rest : Strewn rules more) : Strewn (r :: rules) (r :: more)
  | idle (r : Rule) {rules more : List Rule} (unknown : r.operator.isRecognized = false)
    (rest : Strewn rules more) : Strewn rules (r :: more)

variable {rules more noise later later' : List Rule} {r first : Rule} {d : Condition}

/-! ## Rules without an operator -/

theorem compile_eq_none (h : r.operator.isRecognized = false) : r.compile = none := by
  rw [← isSome_compile] at h
  exact Option.not_isSome_iff_eq_none.mp (Bool.eq_false_iff.mp h)

/-- A rule without an operator contributes nothing. -/
theorem contributions_cons_idle (h : r.operator.isRecognized = false) (rules : List Rule) :
    contributions (r :: rules) = contributions rules := by
  simp [contributions, compile_eq_none h]

namespace Strewn

theorem refl (rules : List Rule) : Strewn rules rules := by
  induction rules with
  | nil => exact .nil
  | cons r rules ih => exact .own r ih

/-- Rules without an operator in front of a list are strewn in. -/
theorem front (idle : ∀ r ∈ noise, r.operator.isRecognized = false) (rules : List Rule) :
    Strewn rules (noise ++ rules) := by
  induction noise with
  | nil => exact refl rules
  | cons r noise ih =>
    exact .idle r (idle r List.mem_cons_self) (ih fun s hs ↦ idle s (List.mem_cons_of_mem _ hs))

theorem contributions_eq (h : Strewn rules more) : contributions more = contributions rules := by
  induction h with
  | nil => rfl
  | own r _ ih =>
    rw [contributions, contributions] at ih
    rw [contributions, List.filterMap_cons, ih, contributions, List.filterMap_cons]
  | idle r unknown _ ih => rw [contributions_cons_idle unknown, ih]

/-- Rules without an operator leave the filter as it is. -/
theorem group_eq (h : Strewn rules more) : group more = group rules := by
  rw [group, h.contributions_eq, group]

end Strewn

/-! ## The first rule and those behind it -/

/-- The filter of a list whose first rule has a condition; the tag of this rule does not occur. -/
theorem group_cons (h : first.compile = some d) (later : List Rule) :
    group (first :: later) =
      .ofGroups (d :: tagged .and (contributions later)) (tagged .or (contributions later)) := by
  rw [group, contributions_cons h]

/-- Rules in another order contribute the same conditions with each tag. -/
theorem tagged_perm (l : Logic) (order : later'.Perm later) :
    (tagged l (contributions later')).Perm (tagged l (contributions later)) :=
  ((order.filterMap _).filter _).map _

/-- Groups of the same conditions let the same customers through. -/
theorem accepts_ofGroups_perm {cs cs' ds ds' : List Condition} (all : cs'.Perm cs)
    (any : ds'.Perm ds) (c : Customer) :
    (Filter.ofGroups cs' ds').accepts c = (Filter.ofGroups cs ds).accepts c := by
  have offered : ds' ≠ [] ↔ ds ≠ [] := by
    rw [← List.length_pos_iff, any.length_eq, List.length_pos_iff]
  rw [Bool.eq_iff_iff, accepts_ofGroups, accepts_ofGroups]
  simp only [all.mem_iff, any.mem_iff, offered]

/-- Rules strewn into a list that have no operator leave its filter as it is, wherever they stand. So
does another tag of the first rule that compares something; and in whatever order the rules behind
this one come, the same customers are let through. -/
theorem group_arrangement (rules : List Rule) :
    (∀ more, Strewn rules more → group more = group rules) ∧
    ∀ noise first later, rules = noise ++ first :: later →
      (∀ r ∈ noise, r.operator.isRecognized = false) → first.operator.isRecognized = true →
      (∀ l, group (noise ++ { first with logic := l } :: later) = group rules) ∧
      ∀ later', later'.Perm later → ∀ c,
        (group (noise ++ first :: later')).accepts c = (group rules).accepts c := by
  refine ⟨fun more strewn ↦ strewn.group_eq, ?_⟩
  rintro noise first later rfl idle recognized
  obtain ⟨d, compiled⟩ := exists_compile recognized
  have bare (rules : List Rule) : group (noise ++ rules) = group rules :=
    (Strewn.front idle rules).group_eq
  constructor
  · intro l
    have same : ({ first with logic := l } : Rule).compile = some d := compiled
    rw [bare, bare, group_cons same, group_cons compiled]
  · intro later' order c
    rw [bare, bare, group_cons compiled, group_cons compiled]
    exact accepts_ofGroups_perm ((tagged_perm .and order).cons d) (tagged_perm .or order) c

def idleRule : Rule := ⟨"visits", .unrecognized "between", .number 3.0, .or⟩

/-- Ten visits or more, but not more than fifty, and either in Pune or with a mark. -/
def regulars : List Rule :=
  [idleRule, ⟨"visits", .atLeast, .text "10", .or⟩, ⟨"address.city", .equal, .text "Pune", .or⟩,
    ⟨"visits", .atMost, .text "50", .and⟩, ⟨"tags", .contains, .text "premium", .or⟩]

/-- More rules that say nothing, in front and in the middle, the other tag of the second rule, and
the others backwards. -/
theorem group_arrangement_regulars :
    let later : List Rule :=
      [⟨"address.city", .equal, .text "Pune", .or⟩, ⟨"visits", .atMost, .text "50", .and⟩,
        ⟨"tags", .contains, .text "premium", .or⟩]
    group (idleRule :: idleRule :: ⟨"visits", .atLeast, .text "10", .or⟩ :: idleRule :: later) =
        group regulars ∧
      group (idleRule :: ⟨"visits", .atLeast, .text "10", .and⟩ :: later) = group regulars ∧
      ∀ c, (group (idleRule :: ⟨"visits", .atLeast, .text "10", .or⟩ :: later.reverse)).accepts c =
        (group regulars).accepts c := by
  intro later
  obtain ⟨strewn, rest⟩ := group_arrangement regulars
  have idle : ∀ r ∈ [idleRule], r.operator.isRecognized = false := by decide
  obtain ⟨tag, order⟩ := rest [idleRule] ⟨"visits", .atLeast, .text "10", .or⟩ later rfl idle rfl
  refine ⟨strewn _ ?_, tag .and, order _ (List.reverse_perm later)⟩
  exact .idle _ rfl (.own _ (.own _ (.idle _ rfl (.refl later))))

end Outreach.Rule
