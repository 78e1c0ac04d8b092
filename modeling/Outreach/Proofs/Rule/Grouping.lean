import Outreach.Proofs.Rule.Arrangement

/-!
# The two groups of conditions

A list of rules is gone through once: each condition is added to one of two groups, and the first one
is told from the others by how many conditions there have been before. Here this walk is written down
(`Groups.put`, `gather`) and compared with the filter of the list. In whatever state the groups are,
the conditions that are still to come are added in their order to the groups of their tags, as soon as
there is a first one (`foldl_put`). So every condition gets into one group, none comes twice, and none
overtakes another.
-/

namespace Outreach.Rule

/-- Two groups of conditions, and how many conditions have been added to them. -/
structure Groups where
  count : Nat
  all : List Condition
  any : List Condition

/-- Add a condition with the tag of its rule. The first one belongs to those that have to hold. -/
def Groups.put (g : Groups) (c : Logic × Condition) : Groups :=
  if 0 < g.count ∧ c.1 = .or then { g with count := g.count + 1, any := g.any ++ [c.2] }
  else { g with count := g.count + 1, all := g.all ++ [c.2] }

/-- The groups of a list of rules. -/
def gather (rules : List Rule) : Groups := (contributions rules).foldl Groups.put ⟨0, [], []⟩

/-! ## The walk -/

variable {rules : List Rule} {g : Groups}

theorem tagged_cons (l : Logic) (c : Logic × Condition) (cs : List (Logic × Condition)) :
    tagged l (c :: cs) = if c.1 = l then c.2 :: tagged l cs else tagged l cs := by
  by_cases h : c.1 = l <;> simp [tagged, h]

/-- Once there has been a condition, the others are added to the groups of their tags. -/
theorem foldl_put (begun : 0 < g.count) (cs : List (Logic × Condition)) :
    cs.foldl Groups.put g =
      ⟨g.count + cs.length, g.all ++ tagged .and cs, g.any ++ tagged .or cs⟩ := by
  induction cs generalizing g with
  | nil => simp [tagged]
  | cons c cs ih =>
    obtain ⟨l, d⟩ := c
    have next : (g.put (l, d)).count = g.count + 1 := by
      unfold Groups.put
      split <;> rfl
    rw [List.foldl_cons, ih (by omega), next, tagged_cons, tagged_cons, List.length_cons]
    cases l with
    | and => simp [Groups.put, Nat.add_comm, Nat.add_left_comm]
    | or => simp [Groups.put, begun, Nat.add_comm, Nat.add_left_comm]

/-- The filter of a list of rules is that of the groups that the walk ends with. -/
theorem group_eq_gather (rules : List Rule) :
    group rules = .ofGroups (gather rules).all (gather rules).any := by
  unfold group gather
  cases contributions rules with
  | nil => rfl
  | cons c cs => simp [foldl_put, Groups.put]

/-- The groups, from the conditions in their order. -/
theorem gather_eq (rules : List Rule) :
    (gather rules).all = ((contributions rules).take 1).map (·.2) ++
        tagged .and ((contributions rules).drop 1) ∧
      (gather rules).any = tagged .or ((contributions rules).drop 1) := by
  unfold gather
  cases contributions rules with
  | nil => exact ⟨rfl, rfl⟩
  | cons c cs => simp [foldl_put, Groups.put]

/-! ## Conditions of rules, in their order -/

/-- The conditions with a tag are those of the rules with the tag. -/
theorem map_some_tagged (known : ∀ r ∈ rules, r.operator.isRecognized = true) (l : Logic) :
    (tagged l (contributions rules)).map some = (rules.filter (·.logic = l)).map compile := by
  induction rules with
  | nil => rfl
  | cons r rules ih =>
    obtain ⟨d, compiled⟩ := exists_compile (known r List.mem_cons_self)
    have rest := ih fun r hr ↦ known r (List.mem_cons_of_mem _ hr)
    rw [contributions_cons compiled, tagged_cons]
    by_cases h : r.logic = l <;> simp [h, rest, compiled]

theorem map_snd_contributions (rules : List Rule) :
    (contributions rules).map (·.2) = rules.filterMap compile := by
  rw [contributions, List.map_filterMap]
  congr 1
  funext r
  cases r.compile <;> rfl

theorem perm_tagged (cs : List (Logic × Condition)) :
    (tagged .and cs ++ tagged .or cs).Perm (cs.map (·.2)) := by
  have other (c : Logic × Condition) : (c.1 == .or) = !(c.1 == .and) := by
    cases c.1 <;> decide
  rw [tagged, tagged, ← List.map_append]
  simp only [other]
  exact (List.filter_append_perm _ cs).map _

/-! ## Filters -/

namespace Filter

/-- The conditions of which all have to hold. -/
def required : Filter → List Condition
  | .all cs | .allWithAny cs _ => cs
  | _ => []

/-- The conditions of which one has to hold. -/
def alternatives : Filter → List Condition
  | .any ds | .allWithAny _ ds => ds
  | _ => []

variable (cs ds : List Condition)

@[simp] theorem required_ofGroups : (ofGroups cs ds).required = cs := by
  cases cs <;> cases ds <;> rfl

@[simp] theorem alternatives_ofGroups : (ofGroups cs ds).alternatives = ds := by
  cases cs <;> cases ds <;> rfl

/-- A filter that asks for nothing comes of nothing. -/
theorem ofGroups_eq_everyone_iff : ofGroups cs ds = .everyone ↔ cs = [] ∧ ds = [] := by
  cases cs <;> cases ds <;> simp [ofGroups]

/-- A filter never has an empty group, and only alternatives if there is nothing else. -/
theorem ofGroups_shape : (∀ ds', ofGroups cs ds = .any ds' → cs = [] ∧ ds ≠ []) ∧
    (∀ cs', ofGroups cs ds = .all cs' → cs' ≠ []) ∧
    ∀ cs' ds', ofGroups cs ds = .allWithAny cs' ds' → cs' ≠ [] ∧ ds' ≠ [] := by
  cases cs <;> cases ds <;> simp +contextual [ofGroups, eq_comm]

end Filter

/-! ## The filter of a list of rules -/

/-- The groups have the conditions of the first rule that compares something and of the others with
the tag, in their order. -/
theorem gather_of_recognized (rules : List Rule) :
    (gather rules).all.map some =
        ((recognized rules).take 1 ++
          ((recognized rules).drop 1).filter (·.logic ≠ .or)).map compile ∧
      (gather rules).any.map some =
        (((recognized rules).drop 1).filter (·.logic = .or)).map compile := by
  obtain ⟨all, any⟩ := gather_eq rules
  rw [all, any, ← contributions_recognized]
  have known : ∀ r ∈ recognized rules, r.operator.isRecognized = true :=
    fun r hr ↦ (List.mem_filter.mp hr).2
  revert known
  cases recognized rules with
  | nil => exact fun _ ↦ ⟨rfl, rfl⟩
  | cons first later =>
    intro known
    obtain ⟨d, compiled⟩ := exists_compile (known first List.mem_cons_self)
    have known' : ∀ r ∈ later, r.operator.isRecognized = true :=
      fun r hr ↦ known r (List.mem_cons_of_mem _ hr)
    rw [contributions_cons compiled]
    have own := map_some_tagged known'
    constructor
    · simp [own .and, compiled, Logic.ne_or_iff]
    · simp [own .or]

/-- Together, the groups have the conditions of all rules. -/
theorem perm_gather (rules : List Rule) :
    ((gather rules).all ++ (gather rules).any).Perm (rules.filterMap compile) := by
  obtain ⟨all, any⟩ := gather_eq rules
  rw [all, any, ← map_snd_contributions, List.append_assoc]
  refine ((perm_tagged _).append_left _).trans (.of_eq ?_)
  rw [← List.map_append, List.take_append_drop]

/-- Neither group has its conditions in another order. -/
theorem sublist_gather (rules : List Rule) :
    (gather rules).all.Sublist (rules.filterMap compile) ∧
      (gather rules).any.Sublist (rules.filterMap compile) := by
  obtain ⟨all, any⟩ := gather_eq rules
  have tags (l : Logic) (cs : List (Logic × Condition)) : (tagged l cs).Sublist (cs.map (·.2)) :=
    List.filter_sublist.map _
  rw [all, any, ← map_snd_contributions]
  constructor
  · have order := (tags .and ((contributions rules).drop 1)).append_left
      (((contributions rules).take 1).map (·.2))
    rwa [← List.map_append, List.take_append_drop] at order
  · exact (tags .or _).trans ((List.drop_sublist 1 _).map _)

theorem contributions_eq_nil_iff :
    contributions rules = [] ↔ ∀ r ∈ rules, r.operator.isRecognized = false := by
  rw [contributions, List.filterMap_eq_nil_iff]
  refine forall₂_congr fun r _ ↦ ?_
  rw [Option.map_eq_none_iff, ← isSome_compile, Option.isSome_eq_false_iff, Option.isNone_iff_eq_none]

/-- The group of what has to hold is empty only if no rule compares anything. -/
theorem gather_all_eq_nil_iff :
    (gather rules).all = [] ↔ ∀ r ∈ rules, r.operator.isRecognized = false := by
  rw [(gather_eq rules).1, ← contributions_eq_nil_iff]
  cases contributions rules with
  | nil => exact iff_of_true rfl rfl
  | cons c cs => exact iff_of_false nofun nofun

/-- There are no alternatives to nothing. -/
theorem gather_any_eq_nil (h : (gather rules).all = []) : (gather rules).any = [] := by
  rw [gather_all_eq_nil_iff, ← contributions_eq_nil_iff] at h
  rw [(gather_eq rules).2, h]
  rfl

/-- The filter has the conditions of a list of rules in two groups. -/
structure Filter.Divides (f : Filter) (rules : List Rule) : Prop where
  /-- What has to hold are the conditions of the first rule that compares something and of those behind
  it that are not tagged as alternatives, one each and in their order. -/
  required : f.required.map some =
    ((recognized rules).take 1 ++ ((recognized rules).drop 1).filter (·.logic ≠ .or)).map compile
  /-- The alternatives are the conditions of the rules behind the first that are tagged so, one each
  and in their order. -/
  alternatives : f.alternatives.map some =
    (((recognized rules).drop 1).filter (·.logic = .or)).map compile
  /-- No condition is lost, and none comes twice. -/
  complete : (f.required ++ f.alternatives).Perm (rules.filterMap compile)
  /-- Neither group is in another order than the rules. -/
  inOrder : f.required.Sublist (rules.filterMap compile) ∧
    f.alternatives.Sublist (rules.filterMap compile)
  /-- Everybody is let through, for want of conditions, only if no rule compares anything. -/
  everyone_iff : f = .everyone ↔ ∀ r ∈ rules, r.operator.isRecognized = false
  ne_any : ∀ ds, f ≠ .any ds
  ne_nil : (∀ cs, f = .all cs → cs ≠ []) ∧ ∀ cs ds, f = .allWithAny cs ds → cs ≠ [] ∧ ds ≠ []

/-- The filter of a list of rules has all their conditions, divided into two groups by the tags of the
rules and by which rule comes first of those that compare something. -/
theorem group_divides (rules : List Rule) : (group rules).Divides rules := by
  obtain ⟨any_of, all_ne, both_ne⟩ := Filter.ofGroups_shape (gather rules).all (gather rules).any
  rw [group_eq_gather]
  exact {
    required := by
      rw [Filter.required_ofGroups]
      exact (gather_of_recognized rules).1
    alternatives := by
      rw [Filter.alternatives_ofGroups]
      exact (gather_of_recognized rules).2
    complete := by
      rw [Filter.required_ofGroups, Filter.alternatives_ofGroups]
      exact perm_gather rules
    inOrder := by
      rw [Filter.required_ofGroups, Filter.alternatives_ofGroups]
      exact sublist_gather rules
    everyone_iff := by
      rw [Filter.ofGroups_eq_everyone_iff, ← gather_all_eq_nil_iff]
      exact and_iff_left_of_imp gather_any_eq_nil
    ne_any := fun ds alone ↦ (any_of ds alone).2 (gather_any_eq_nil (any_of ds alone).1)
    ne_nil := ⟨all_ne, both_ne⟩ }

/-- The tag of the first rule that compares something is not looked at, wherever this rule stands. -/
example :
    let rules : List Rule :=
      [⟨"visits", .unrecognized "between", .text "3", .and⟩, ⟨"visits", .atLeast, .text "10", .or⟩,
        ⟨"tags", .contains, .text "premium", .or⟩]
    (match group rules with
      | .allWithAny cs ds => some (cs.map (·.field), ds.map (·.field))
      | _ => none) = some ([.visits], [.tags]) := by
  decide +kernel

end Outreach.Rule
