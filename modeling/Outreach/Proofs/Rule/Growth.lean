import Outreach.Proofs.Rule.Acceptance

/-!
# Lists of rules that grow

A list of rules makes demands, which all have to hold, and it may offer alternatives, one of which
has to hold. Rules that are added behind a list join one side or the other by their tags; only if
there is nothing yet that compares something, the first of them is a demand whatever its tag.

More demands never let anybody else through. The first alternative is like a further demand, but
every later one lets more customers through.
-/

namespace Outreach.Rule

variable {rules more : List Rule} {r : Rule} {c : Customer}

/-! ## Demands and alternatives -/

/-- The rules that all have to hold: the first that compares something, and the later ones that are
not tagged as alternatives. -/
def demands (rules : List Rule) : List Rule :=
  match recognized rules with
  | [] => []
  | first :: later => first :: later.filter (·.logic = .and)

/-- The rules of which one has to hold, if there are any. -/
def alternatives (rules : List Rule) : List Rule :=
  (recognized rules).tail.filter (·.logic = .or)

/-- The demands have to hold, and so has an alternative where one is offered. -/
theorem letsThrough_iff :
    LetsThrough rules c ↔ (∀ r ∈ demands rules, r.Holds c) ∧
      (alternatives rules ≠ [] → ∃ r ∈ alternatives rules, r.Holds c) := by
  unfold LetsThrough demands alternatives
  cases recognized rules with
  | nil => simp
  | cons first later =>
    have offered : later.filter (·.logic = .or) ≠ [] ↔ ∃ r ∈ later, r.logic = .or := by
      simp [List.filter_eq_nil_iff]
    rw [List.tail_cons, offered]
    simp only [List.forall_mem_cons, List.mem_filter, decide_eq_true_eq, Logic.ne_or_iff, and_imp,
      and_assoc]

theorem recognized_append : recognized (rules ++ more) = recognized rules ++ recognized more :=
  List.filter_append ..

theorem recognized_ne_nil_iff :
    recognized rules ≠ [] ↔ ∃ r ∈ rules, r.operator.isRecognized = true := by
  simp [recognized, List.filter_eq_nil_iff]

/-! ## Rules behind a list -/

/-- Behind a rule that compares something, rules that are not tagged as alternatives are demands. -/
theorem demands_append (begun : recognized rules ≠ []) :
    demands (rules ++ more) = demands rules ++ (recognized more).filter (·.logic = .and) := by
  obtain ⟨first, later, h⟩ := List.exists_cons_of_ne_nil begun
  simp only [demands, recognized_append, h, List.cons_append, List.filter_append]

/-- Behind a rule that compares something, rules that are tagged as alternatives are such. -/
theorem alternatives_append (begun : recognized rules ≠ []) :
    alternatives (rules ++ more) = alternatives rules ++ (recognized more).filter (·.logic = .or) := by
  rw [alternatives, recognized_append, List.tail_append_of_ne_nil begun, List.filter_append,
    alternatives]

/-! ## Demands behind a list -/

/-- A list without alternatives only makes demands. -/
theorem letsThrough_of_and (all : ∀ r ∈ more, r.logic = .and) :
    LetsThrough more c ↔ ∀ r ∈ recognized more, r.Holds c := by
  have tags : ∀ r ∈ recognized more, r.logic = .and := fun r hr ↦ all r (List.mem_filter.mp hr).1
  unfold LetsThrough
  revert tags
  cases recognized more with
  | nil => simp
  | cons first later =>
    intro tags
    have later_and : ∀ r ∈ later, r.logic = .and := fun r hr ↦ tags r (List.mem_cons_of_mem _ hr)
    simp +contextual [later_and]

/-- Who passes a list and the demands behind it passes both of them, and conversely. -/
theorem letsThrough_append (all : ∀ r ∈ more, r.logic = .and) :
    LetsThrough (rules ++ more) c ↔ LetsThrough rules c ∧ LetsThrough more c := by
  have tags : ∀ r ∈ recognized more, r.logic = .and := fun r hr ↦ all r (List.mem_filter.mp hr).1
  by_cases begun : recognized rules = []
  · -- What is in front says nothing, so that the first demand stays the first.
    have same : LetsThrough (rules ++ more) c ↔ LetsThrough more c := by
      rw [LetsThrough, recognized_append, begun, List.nil_append, LetsThrough]
    have free : LetsThrough rules c := by
      rw [LetsThrough, begun]
      trivial
    rw [same, and_iff_right free]
  · have joined : (recognized more).filter (·.logic = .and) = recognized more :=
      List.filter_eq_self.mpr fun r hr ↦ decide_eq_true (tags r hr)
    have none : (recognized more).filter (·.logic = .or) = [] := by
      rw [List.filter_eq_nil_iff]
      intro r hr
      simp [tags r hr]
    rw [letsThrough_of_and all, letsThrough_iff, letsThrough_iff, demands_append begun,
      alternatives_append begun, joined, none, List.append_nil, List.forall_mem_append]
    exact and_right_comm

/-! ## An alternative behind a list -/

/-- Behind a rule that compares something, a further alternative is one way more to satisfy a list
whose demands hold. -/
theorem letsThrough_concat (begun : recognized rules ≠ []) (known : r.operator.isRecognized = true)
    (tag : r.logic = .or) :
    LetsThrough (rules ++ [r]) c ↔ (∀ d ∈ demands rules, d.Holds c) ∧
      ((∃ a ∈ alternatives rules, a.Holds c) ∨ r.Holds c) := by
  have new : recognized [r] = [r] := by simp [recognized, known]
  have demand : [r].filter (·.logic = .and) = [] := by simp [tag]
  have alternative : [r].filter (·.logic = .or) = [r] := by simp [tag]
  rw [letsThrough_iff, demands_append begun, alternatives_append begun, new, demand, alternative,
    List.append_nil]
  simp [or_and_right, exists_or]

/-- The first alternative has to hold, like a demand. -/
theorem letsThrough_first (begun : recognized rules ≠ []) (known : r.operator.isRecognized = true)
    (tag : r.logic = .or) (first : alternatives rules = []) :
    LetsThrough (rules ++ [r]) c ↔ LetsThrough rules c ∧ r.Holds c := by
  rw [letsThrough_concat begun known tag, letsThrough_iff, first]
  simp

/-- Who passes a list that offers alternatives passes it with one more of them too. -/
theorem LetsThrough.concat (begun : recognized rules ≠ []) (known : r.operator.isRecognized = true)
    (tag : r.logic = .or) (offered : alternatives rules ≠ []) (h : LetsThrough rules c) :
    LetsThrough (rules ++ [r]) c := by
  obtain ⟨hold, one⟩ := letsThrough_iff.mp h
  exact (letsThrough_concat begun known tag).mpr ⟨hold, .inl (one offered)⟩

/-- Who passes a list only with the alternative that was added satisfies this alternative and all
demands. -/
theorem LetsThrough.holds_new (begun : recognized rules ≠ [])
    (known : r.operator.isRecognized = true) (tag : r.logic = .or)
    (h : LetsThrough (rules ++ [r]) c) (before : ¬LetsThrough rules c) :
    r.Holds c ∧ ∀ d ∈ demands rules, d.Holds c := by
  obtain ⟨hold, old | new⟩ := (letsThrough_concat begun known tag).mp h
  · exact absurd (letsThrough_iff.mpr ⟨hold, fun _ ↦ old⟩) before
  · exact ⟨new, hold⟩

end Outreach.Rule
