import Outreach.Proofs.Audience.Evaluation
import Outreach.Proofs.Rule.Growth

/-!
# Audiences of lists that grow

What rules behind a list do to its audience. Demands can as well be evaluated among the audience
that the list has without them. An alternative narrows the audience if it is the first one, and
widens it if there were others before.
-/

namespace Outreach.Audience

variable {customers : List Customer} {rules others : List Rule}

/-- If the one list asks for what the other asks for and something else besides, its audience is the
part of the other one that has this too. -/
theorem evaluate_eq_filter (distinct : (customers.map Customer.id).Nodup) (p : Customer → Bool)
    (narrower : ∀ c : Customer, c.isActive = true →
      (Rule.LetsThrough others c ↔ Rule.LetsThrough rules c ∧ p c = true)) :
    evaluate customers others = (evaluate customers rules).filter p := by
  have same : ∀ c, admits (Rule.group others) c = (p c && admits (Rule.group rules) c) := by
    intro c
    rw [Bool.eq_iff_iff, Bool.and_eq_true, admits_iff, admits_iff]
    constructor
    · rintro ⟨active, through⟩
      obtain ⟨through, here⟩ := (narrower c active).mp through
      exact ⟨here, active, through⟩
    · rintro ⟨here, active, through⟩
      exact ⟨active, (narrower c active).mpr ⟨through, here⟩⟩
  have keys : ((customers.filter (admits (Rule.group rules))).map Customer.seniority).Nodup :=
    nodup_seniority distinct _
  rw [evaluate, evaluate, Customer.olderFirst_comparesBy.filter_mergeSort keys, List.filter_filter]
  exact congrArg (List.mergeSort · Customer.olderFirst) (List.filter_congr fun c _ ↦ same c)

/-- Demands leave of an audience those who satisfy them, in the order in which they were. -/
theorem evaluate_evaluate_eq_filter (customers : List Customer) (rules more : List Rule) :
    evaluate (evaluate customers rules) more =
      (evaluate customers rules).filter (admits (Rule.group more)) :=
  Customer.olderFirst_comparesBy.mergeSort_eq_self
    ((Customer.olderFirst_comparesBy.pairwise_le _).filter _)

/-- Demands behind a list are evaluated among its audience. -/
theorem evaluate_append (distinct : (customers.map Customer.id).Nodup) {more : List Rule}
    (all : ∀ r ∈ more, r.logic = .and) :
    evaluate customers (rules ++ more) = evaluate (evaluate customers rules) more := by
  rw [evaluate_evaluate_eq_filter]
  refine evaluate_eq_filter distinct _ fun c active ↦ ?_
  rw [Rule.letsThrough_append all, admits_iff, and_iff_right active]

/-- Evaluating a list of rules with further demands is evaluating these among the audience of the
list. A first alternative leaves of the audience those who satisfy it; a later one takes nobody
away, and whoever it adds satisfies it and all demands of the list. -/
theorem evaluate_growth (customers : List Customer) (rules : List Rule)
    (distinct : (customers.map Customer.id).Nodup) :
    (∀ more : List Rule, (∀ r ∈ more, r.logic = .and) →
      evaluate customers (rules ++ more) = evaluate (evaluate customers rules) more) ∧
    ∀ r : Rule, (∃ q ∈ rules, q.operator.isRecognized = true) → r.operator.isRecognized = true →
      r.logic = .or →
        (Rule.alternatives rules = [] →
          evaluate customers (rules ++ [r]) = (evaluate customers rules).filter (r.Holds ·)) ∧
        (Rule.alternatives rules ≠ [] →
          (evaluate customers rules).Sublist (evaluate customers (rules ++ [r])) ∧
          ∀ c ∈ evaluate customers (rules ++ [r]), c ∉ evaluate customers rules →
            r.Holds c ∧ ∀ d ∈ Rule.demands rules, d.Holds c) := by
  refine ⟨fun more all ↦ evaluate_append distinct all, fun r begun known tag ↦ ?_⟩
  have begun := Rule.recognized_ne_nil_iff.mpr begun
  constructor
  · intro first
    refine evaluate_eq_filter distinct _ fun c _ ↦ ?_
    rw [Rule.letsThrough_first begun known tag first, decide_eq_true_iff]
  · intro offered
    constructor
    · -- The old audience is the part of the new one that the list lets through.
      have part : evaluate customers rules = (evaluate customers (rules ++ [r])).filter
          (Rule.group rules).accepts := by
        refine evaluate_eq_filter distinct _ fun c _ ↦ ?_
        rw [Rule.accepts_group, iff_and_self]
        exact fun through ↦ through.concat begun known tag offered
      rw [part]
      exact List.filter_sublist
    · intro c new old
      obtain ⟨here, active, through⟩ := mem_evaluate.mp new
      have before : ¬Rule.LetsThrough rules c := fun h ↦ old (mem_evaluate.mpr ⟨here, active, h⟩)
      exact through.holds_new begun known tag before

/-- A customer from a city who came a number of times. -/
def visitor (number : BitVec 128) (visits : UInt64) (city : String) : Customer :=
  { twin number with visits, address := { Address.empty with city := some city } }

/-- Three visitors against the order of their identities. -/
def visitors : List Customer := [visitor 3 1 "Pune", visitor 2 9 "Delhi", visitor 1 1 "Delhi"]

def everComing : List Rule := [⟨"visits", .atLeast, .number 1.0, .or⟩]

/-- Whoever came more than once, as a demand. -/
def moreThanOnce : List Rule := [⟨"visits", .greater, .number 1.0, .and⟩]

/-- Whoever came often, as an alternative. -/
def often : Rule := ⟨"visits", .greater, .number 5.0, .or⟩

/-- Whoever lives in a city, as an alternative. -/
def inPune : Rule := ⟨"address.city", .equal, .text "Pune", .or⟩

/-- The first alternative drops the visitor who came only once, and the second one brings this visitor
back. -/
theorem evaluate_growth_visitors :
    (visitors.map Customer.id).Nodup ∧
      evaluate visitors (everComing ++ [often]) =
        (evaluate visitors everComing).filter (often.Holds ·) ∧
      visitor 3 1 "Pune" ∉ evaluate visitors (everComing ++ [often]) ∧
      (evaluate visitors (everComing ++ [often])).Sublist
        (evaluate visitors (everComing ++ [often] ++ [inPune])) ∧
      visitor 3 1 "Pune" ∈ evaluate visitors (everComing ++ [often] ++ [inPune]) ∧
      (inPune.Holds (visitor 3 1 "Pune") ∧
        ∀ d ∈ Rule.demands (everComing ++ [often]), d.Holds (visitor 3 1 "Pune")) ∧
      evaluate visitors (everComing ++ moreThanOnce) =
        evaluate (evaluate visitors everComing) moreThanOnce := by
  have distinct : (visitors.map Customer.id).Nodup := by decide
  obtain ⟨demanded, grown⟩ := evaluate_growth visitors everComing distinct
  obtain ⟨narrowed, -⟩ := grown often (by decide) rfl rfl
  obtain ⟨-, grown'⟩ := evaluate_growth visitors (everComing ++ [often]) distinct
  obtain ⟨-, widened⟩ := grown' inPune (by decide) rfl rfl
  obtain ⟨kept, added⟩ := widened (by decide +kernel)
  have narrowed := narrowed (by decide +kernel)
  have gone : visitor 3 1 "Pune" ∉ evaluate visitors (everComing ++ [often]) := by
    rw [narrowed, List.mem_filter, decide_eq_true_iff]
    exact fun h ↦ absurd h.2 (by decide +kernel)
  have back : visitor 3 1 "Pune" ∈ evaluate visitors (everComing ++ [often] ++ [inPune]) := by
    refine mem_evaluate.mpr ⟨List.mem_cons_self, rfl, ?_⟩
    exact (Rule.accepts_group _ _).mp (by decide +kernel)
  exact ⟨distinct, narrowed, gone, kept, back, added _ back gone, demanded _ (by decide)⟩

end Outreach.Audience
