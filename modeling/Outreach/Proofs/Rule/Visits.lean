import Outreach.Proofs.Decimal.Rounding
import Outreach.Proofs.Rule.Reading
import Outreach.Rule.Basic

/-!
# At least a number of visits

Visits are counted in whole numbers of 64 bits, but rules compare doubles. A rule for at least a
number of visits therefore compares what both numbers are rounded to. It never misses a customer with
enough visits, and up to 2^53 it is exact. Beyond that it also lets through customers who come short
of the number by less than the rounding takes away.
-/

namespace Outreach.Rule

open Decimal Builder

variable {rules : List Rule} {n : UInt64} {c : Customer}

/-- The rule for at least a number of visits. -/
def visitedAtLeast (n : UInt64) : Rule := ⟨"visits", .atLeast, .number (signedFloat n), .and⟩

theorem visitsAtLeast_eq (rules : List Rule) (n : UInt64) :
    visitsAtLeast rules n = rules ++ [visitedAtLeast n] := rfl

/-- The condition of the rule, for a number that fits into 64 bits with a sign. -/
theorem compile_visitedAtLeast (hn : n.toNat < 2 ^ 63) :
    (visitedAtLeast n).compile =
      some ⟨.visits, .compare .atLeast (.number n.toFloat)⟩ := by
  have same : signedFloat n = n.toFloat := if_pos hn
  have read : Value.number? (.number n.toFloat) = some n.toFloat := if_pos (isFinite_toFloat n)
  have compiled : (visitedAtLeast n).compile =
      some ⟨.visits, ((Value.ordering? (.number (signedFloat n)) .atLeast .number)).getD .never⟩ := rfl
  rw [compiled, same, Value.ordering?, read]
  rfl

/-- A customer satisfies the condition whose visits are not rounded to less. -/
theorem accepts_visits_iff :
    (Condition.mk .visits (.compare .atLeast (.number n.toFloat))).accepts c = true ↔
      rounded n.toNat ≤ rounded c.visits.toNat := by
  show decide (n.toFloat ≤ c.visits.toFloat) = true ↔ _
  rw [decide_eq_true_iff, toFloat_le_iff]

/-- From 2^63 on the number goes through 64 bits with a sign and comes out negative, so that everybody
satisfies the condition. -/
theorem visitsAtLeast_everybody (rules : List Rule) (n : UInt64) (hn : 2 ^ 63 ≤ n.toNat) :
    ∃ r d, visitsAtLeast rules n = rules ++ [r] ∧ r.compile = some d ∧
      ∀ c : Customer, d.accepts c = true := by
  have turned : signedFloat n = -(0 - n).toFloat := if_neg (Nat.not_lt.mpr hn)
  have finite : (-(0 - n).toFloat).isFinite = true := isFinite_neg (isFinite_toFloat _)
  have read : Value.number? (.number (-(0 - n).toFloat)) = some (-(0 - n).toFloat) := if_pos finite
  have compiled : (visitedAtLeast n).compile =
      some ⟨.visits, .compare .atLeast (.number (-(0 - n).toFloat))⟩ := by
    have ordering : (visitedAtLeast n).compile =
        some ⟨.visits, (Value.ordering? (.number (signedFloat n)) .atLeast .number).getD .never⟩ := rfl
    rw [ordering, turned, Value.ordering?, read]
    rfl
  refine ⟨_, _, visitsAtLeast_eq rules n, compiled, fun c ↦ ?_⟩
  show decide (-(0 - n).toFloat ≤ c.visits.toFloat) = true
  exact decide_eq_true (neg_toFloat_le _ _)

/-- The rule that is appended for a number of visits below 2^63 has a condition. It is satisfied by
the customers whose visits, rounded to 53 binary digits, are at least the number, rounded like them: so
by everybody with at least that many visits, by nobody who comes short of it by more than 1024, and up
to 2^53 by nobody with fewer. -/
theorem visitsAtLeast_rounded (rules : List Rule) (n : UInt64) (hn : n.toNat < 2 ^ 63) :
    ∃ r d, visitsAtLeast rules n = rules ++ [r] ∧ r.compile = some d ∧ ∀ c : Customer,
      (d.accepts c = true ↔ rounded n.toNat ≤ rounded c.visits.toNat) ∧
      (n ≤ c.visits → d.accepts c = true) ∧
      (n.toNat ≤ 2 ^ 53 → (d.accepts c = true ↔ n ≤ c.visits)) ∧
      (d.accepts c = true → n.toNat ≤ c.visits.toNat + 1024) := by
  refine ⟨_, _, visitsAtLeast_eq rules n, compile_visitedAtLeast hn, fun c ↦
    ⟨accepts_visits_iff, ?_, ?_, ?_⟩⟩
  · intro enough
    exact accepts_visits_iff.mpr (rounded_mono (UInt64.le_iff_toNat_le.mp enough))
  · intro exact'
    rw [accepts_visits_iff, rounded_le_rounded_iff exact', UInt64.le_iff_toNat_le]
  · intro accepted
    exact le_add_of_rounded_le hn (accepts_visits_iff.mp accepted)

def visitor (n : UInt64) : Customer := { buyer with visits := n }

/-- Two visits more than 2^53 are as many as they are. -/
theorem visitsAtLeast_rounded_even :
    (9007199254740994 : UInt64).toNat < 2 ^ 63 ∧
      ∃ r d, visitsAtLeast [] 9007199254740994 = [r] ∧ r.compile = some d ∧
        d.accepts (visitor 9007199254740994) = true ∧
        ¬d.accepts (visitor 9007199254740992) = true := by
  have small : (9007199254740994 : UInt64).toNat < 2 ^ 63 := by decide
  obtain ⟨r, d, appended, compiled, holds⟩ := visitsAtLeast_rounded [] 9007199254740994 small
  refine ⟨small, r, d, appended, compiled, ?_, ?_⟩
  · exact (holds (visitor 9007199254740994)).2.1 (by decide)
  · rw [(holds (visitor 9007199254740992)).1]
    decide

/-- One visit more than 2^53 is asked for, and 2^53 are enough. -/
theorem not_visitsAtLeast_exact :
    ¬∀ (rules : List Rule) (n : UInt64) (c : Customer), ∃ r d,
      visitsAtLeast rules n = rules ++ [r] ∧ r.compile = some d ∧
        (d.accepts c = true ↔ n ≤ c.visits) := by
  intro exact'
  obtain ⟨r, d, appended, compiled, iff⟩ :=
    exact' [] 9007199254740993 (visitor 9007199254740992)
  have rule : r = visitedAtLeast 9007199254740993 := (List.cons.inj appended).1.symm
  rw [rule, compile_visitedAtLeast (by decide), Option.some.injEq] at compiled
  rw [← compiled, accepts_visits_iff] at iff
  exact absurd (iff.mp (by decide)) (by decide)

end Outreach.Rule
