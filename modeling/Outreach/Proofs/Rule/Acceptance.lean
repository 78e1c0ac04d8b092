import Mathlib.Tactic.Common
import Outreach.Rule.Filter

/-!
# What a list of rules asks for

The filter of a list of rules is put together from two groups of conditions. Here it is compared
with a direct reading of the list, in which no conditions occur: the rules without an operator are
left aside; of the others the first has to hold, and so has every later one that is not tagged as an
alternative; and if there are alternatives, one of them has to hold.
-/

namespace Outreach.Rule

/-! ## The direct reading -/

/-- The rules of a list that compare something. -/
def recognized (rules : List Rule) : List Rule := rules.filter (·.operator.isRecognized)

/-- The customer satisfies the condition of the rule. -/
def Holds (r : Rule) (c : Customer) : Prop := ∃ d, r.compile = some d ∧ d.accepts c = true

instance (r : Rule) (c : Customer) : Decidable (r.Holds c) :=
  decidable_of_iff (r.compile.any (·.accepts c) = true) (by simp [Holds, Option.any_eq_true])

/-- The customer is let through by a list of rules. -/
def LetsThrough (rules : List Rule) (c : Customer) : Prop :=
  match recognized rules with
  | [] => True
  | first :: later =>
    first.Holds c ∧ (∀ r ∈ later, r.logic ≠ .or → r.Holds c) ∧
      ((∃ r ∈ later, r.logic = .or) → ∃ r ∈ later, r.logic = .or ∧ r.Holds c)

/-! ## Conditions of rules -/

/-- The rules with a condition are those that compare something. -/
theorem isSome_compile (r : Rule) : r.compile.isSome = r.operator.isRecognized := by
  unfold compile
  cases r.operator.isRecognized with
  | false => rfl
  | true => cases h : (Field.ofName r.field).kind? <;> simp [h]

theorem exists_compile {r : Rule} (h : r.operator.isRecognized = true) :
    ∃ d, r.compile = some d :=
  Option.isSome_iff_exists.mp ((isSome_compile r).trans h)

theorem holds_iff {r : Rule} {d : Condition} (h : r.compile = some d) (c : Customer) :
    r.Holds c ↔ d.accepts c = true := by
  simp [Holds, h]

/-- Rules without an operator contribute nothing. -/
theorem contributions_recognized (rules : List Rule) :
    contributions (recognized rules) = contributions rules := by
  rw [contributions, recognized, List.filterMap_filter, contributions]
  congr 1
  funext r
  rw [← isSome_compile]
  cases r.compile <;> rfl

/-- A rule with a condition contributes it in front of what the rules behind it contribute. -/
theorem contributions_cons {r : Rule} {d : Condition} (h : r.compile = some d)
    (rules : List Rule) : contributions (r :: rules) = (r.logic, d) :: contributions rules := by
  simp [contributions, h]

theorem mem_tagged_contributions {l : Logic} {rules : List Rule} {d : Condition} :
    d ∈ tagged l (contributions rules) ↔ ∃ r ∈ rules, r.logic = l ∧ r.compile = some d := by
  simp only [tagged, contributions, List.mem_map, List.mem_filter, List.mem_filterMap, beq_iff_eq,
    Option.map_eq_some_iff]
  constructor
  · rintro ⟨_, ⟨⟨r, hr, d, hd, rfl⟩, hl⟩, rfl⟩
    exact ⟨r, hr, hl, hd⟩
  · rintro ⟨r, hr, hl, hd⟩
    exact ⟨(r.logic, d), ⟨⟨r, hr, d, hd, rfl⟩, hl⟩, rfl⟩

/-! ## The two groups -/

/-- An empty group asks for nothing, and otherwise all of the one and one of the other. -/
theorem accepts_ofGroups (cs ds : List Condition) (c : Customer) :
    (Filter.ofGroups cs ds).accepts c = true ↔
      (∀ d ∈ cs, d.accepts c = true) ∧ (ds ≠ [] → ∃ d ∈ ds, d.accepts c = true) := by
  cases cs <;> cases ds <;> simp [Filter.ofGroups, Filter.accepts]

variable {rules : List Rule} {c : Customer}

/-- The rules with a tag all hold if their conditions are all satisfied. -/
theorem forall_tagged {l : Logic} (known : ∀ r ∈ rules, r.operator.isRecognized = true) :
    (∀ d ∈ tagged l (contributions rules), d.accepts c = true) ↔
      ∀ r ∈ rules, r.logic = l → r.Holds c := by
  constructor
  · intro all r hr hl
    obtain ⟨d, hd⟩ := exists_compile (known r hr)
    exact ⟨d, hd, all d (mem_tagged_contributions.mpr ⟨r, hr, hl, hd⟩)⟩
  · intro all d hd
    obtain ⟨r, hr, hl, hrd⟩ := mem_tagged_contributions.mp hd
    exact (holds_iff hrd c).mp (all r hr hl)

/-- One of the rules with a tag holds if one of their conditions is satisfied. -/
theorem exists_tagged {l : Logic} :
    (∃ d ∈ tagged l (contributions rules), d.accepts c = true) ↔
      ∃ r ∈ rules, r.logic = l ∧ r.Holds c := by
  constructor
  · rintro ⟨d, hd, accepted⟩
    obtain ⟨r, hr, hl, hrd⟩ := mem_tagged_contributions.mp hd
    exact ⟨r, hr, hl, d, hrd, accepted⟩
  · rintro ⟨r, hr, hl, d, hrd, accepted⟩
    exact ⟨d, mem_tagged_contributions.mpr ⟨r, hr, hl, hrd⟩, accepted⟩

theorem tagged_ne_nil {l : Logic} (known : ∀ r ∈ rules, r.operator.isRecognized = true) :
    tagged l (contributions rules) ≠ [] ↔ ∃ r ∈ rules, r.logic = l := by
  rw [ne_eq, List.eq_nil_iff_forall_not_mem, not_forall_not]
  constructor
  · rintro ⟨d, hd⟩
    obtain ⟨r, hr, hl, -⟩ := mem_tagged_contributions.mp hd
    exact ⟨r, hr, hl⟩
  · rintro ⟨r, hr, hl⟩
    obtain ⟨d, hd⟩ := exists_compile (known r hr)
    exact ⟨d, mem_tagged_contributions.mpr ⟨r, hr, hl, hd⟩⟩

theorem Logic.ne_or_iff {l : Logic} : l ≠ .or ↔ l = .and := by cases l <;> decide

/-- The filter of a list of rules lets through whom the direct reading lets through. -/
theorem accepts_group (rules : List Rule) (c : Customer) :
    (group rules).accepts c = true ↔ LetsThrough rules c := by
  unfold group LetsThrough
  rw [← contributions_recognized]
  have known : ∀ r ∈ recognized rules, r.operator.isRecognized = true :=
    fun r hr ↦ (List.mem_filter.mp hr).2
  revert known
  cases recognized rules with
  | nil => simp [contributions, Filter.accepts]
  | cons first later =>
    intro known
    obtain ⟨d, hd⟩ := exists_compile (known first List.mem_cons_self)
    have known' : ∀ r ∈ later, r.operator.isRecognized = true :=
      fun r hr ↦ known r (List.mem_cons_of_mem _ hr)
    rw [contributions_cons hd]
    simp only [accepts_ofGroups, List.forall_mem_cons, forall_tagged known', exists_tagged,
      tagged_ne_nil known', holds_iff hd, Logic.ne_or_iff, and_assoc]

end Outreach.Rule
