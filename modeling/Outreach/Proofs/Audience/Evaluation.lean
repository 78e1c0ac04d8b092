import Mathlib.Data.Prod.Lex
import Outreach.Audience.Basic
import Outreach.Demo.Records
import Outreach.Proofs.Calendar.Order
import Outreach.Proofs.Identity
import Outreach.Proofs.Rule.Acceptance
import Outreach.Proofs.Sorting

/-!
# The audience of a list of rules

An audience consists of the active customers that the direct reading of the rules lets through, each
once and the oldest record first. How the customers were arranged before does not matter, and the
same rules find nothing to remove from their own audience.
-/

namespace Outreach

/-- When the record of a customer was made, and the identity for records of one instant. -/
def Customer.seniority (c : Customer) : Calendar.Instant ×ₗ Id := toLex (c.createdAt, c.id)

/-- Older records first means: in the order of seniority. -/
theorem Customer.olderFirst_comparesBy : ComparesBy Customer.olderFirst Customer.seniority := by
  intro a b
  simp [olderFirst, seniority, Prod.Lex.toLex_le_toLex]

namespace Audience

variable {customers others : List Customer} {rules : List Rule}

theorem admits_iff {c : Customer} :
    admits (Rule.group rules) c = true ↔ c.isActive = true ∧ Rule.LetsThrough rules c := by
  rw [admits, Bool.and_eq_true, Rule.accepts_group]

/-- The audience consists of the active customers that the rules let through. -/
theorem mem_evaluate {c : Customer} :
    c ∈ evaluate customers rules ↔
      c ∈ customers ∧ c.isActive = true ∧ Rule.LetsThrough rules c := by
  rw [evaluate, List.mem_mergeSort, List.mem_filter, admits_iff]

/-- Customers with different identities have different seniority, also those admitted. -/
theorem nodup_seniority (distinct : (customers.map Customer.id).Nodup) (p : Customer → Bool) :
    ((customers.filter p).map Customer.seniority).Nodup := by
  have kept : ((customers.filter p).map Customer.id).Nodup :=
    distinct.sublist (List.filter_sublist.map _)
  refine List.Nodup.of_map (fun k ↦ (ofLex k).2) ?_
  rw [List.map_map]
  exact kept

/-- The audience ascends strictly in seniority. -/
theorem pairwise_evaluate (distinct : (customers.map Customer.id).Nodup) :
    (evaluate customers rules).Pairwise fun a b ↦ a.seniority < b.seniority :=
  Customer.olderFirst_comparesBy.pairwise_lt (nodup_seniority distinct _)

/-- Nobody is in the audience twice. -/
theorem nodup_evaluate (distinct : (customers.map Customer.id).Nodup) :
    (evaluate customers rules).Nodup :=
  (pairwise_evaluate distinct).imp fun hlt e ↦ hlt.ne (congrArg Customer.seniority e)

/-- The arrangement of the customers does not matter. -/
theorem evaluate_eq_of_perm (distinct : (customers.map Customer.id).Nodup)
    (p : others.Perm customers) : evaluate others rules = evaluate customers rules :=
  (Customer.olderFirst_comparesBy.mergeSort_eq_of_perm (nodup_seniority distinct _)
    (p.symm.filter _)).symm

/-- The rules let all of their audience through. -/
theorem evaluate_evaluate (customers : List Customer) (rules : List Rule) :
    evaluate (evaluate customers rules) rules = evaluate customers rules := by
  have all : ∀ c ∈ evaluate customers rules, admits (Rule.group rules) c = true :=
    fun c hc ↦ admits_iff.mpr (mem_evaluate.mp hc).2
  rw [evaluate, List.filter_eq_self.mpr all]
  exact Customer.olderFirst_comparesBy.mergeSort_eq_self
    (Customer.olderFirst_comparesBy.pairwise_le _)

/-- Among customers with different identities, the audience of a list of rules consists of exactly
the active ones that the direct reading of the rules lets through, each once and strictly ascending
by the time of the record and the identity. It is the same for every arrangement of the customers,
and the rules leave their own audience as it is. -/
theorem evaluate_exact (customers : List Customer) (rules : List Rule)
    (distinct : (customers.map Customer.id).Nodup) :
    (∀ c, c ∈ evaluate customers rules ↔
      c ∈ customers ∧ c.isActive = true ∧ Rule.LetsThrough rules c) ∧
    (evaluate customers rules).Nodup ∧
    ((evaluate customers rules).Pairwise fun a b ↦ a.seniority < b.seniority) ∧
    (∀ others : List Customer, others.Perm customers →
      evaluate others rules = evaluate customers rules) ∧
    evaluate (evaluate customers rules) rules = evaluate customers rules :=
  ⟨fun _ ↦ mem_evaluate, nodup_evaluate distinct, pairwise_evaluate distinct,
    fun _ p ↦ evaluate_eq_of_perm distinct p, evaluate_evaluate customers rules⟩

/-- A customer with a record of the same instant as every other twin. -/
def twin (number : BitVec 128) : Customer :=
  Demo.customer "Amit Patel" ⟨number⟩ .epoch fun _ ↦ 0

/-- A rule that says nothing in front of one that counts as the first. -/
def activeAfterNoise : List Rule :=
  [⟨"visits", .unrecognized "between", .number 3.0, .and⟩,
    ⟨"status", .equal, .text "active", .or⟩]

/-- Twins who come against the order of their identities are put in that order. -/
theorem evaluate_exact_twins :
    ([twin 2, twin 1].map Customer.id).Nodup ∧
      twin 1 ∈ evaluate [twin 2, twin 1] activeAfterNoise ∧
      evaluate [twin 1, twin 2] activeAfterNoise = evaluate [twin 2, twin 1] activeAfterNoise ∧
      ((evaluate [twin 2, twin 1] activeAfterNoise).Pairwise
        fun a b ↦ a.seniority < b.seniority) := by
  have distinct : ([twin 2, twin 1].map Customer.id).Nodup := by decide
  obtain ⟨mem, -, ascending, same, -⟩ :=
    evaluate_exact [twin 2, twin 1] activeAfterNoise distinct
  have through : Rule.LetsThrough activeAfterNoise (twin 1) := by
    refine ⟨⟨_, rfl, rfl⟩, ?_, ?_⟩ <;> simp
  exact ⟨distinct, (mem _).mpr ⟨by simp, rfl, through⟩, same _ (.swap _ _ _), ascending⟩

end Audience

end Outreach
