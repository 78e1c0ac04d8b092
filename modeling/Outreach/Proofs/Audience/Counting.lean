import Outreach.Audience.Insights
import Outreach.Proofs.Audience.Growth
import Outreach.Proofs.Decimal.Counts
import Outreach.Store.Figures

/-!
# How large an audience is

The size of an audience is found in several ways: by counting, by listing it for a preview or for
insights, and for the audience of no rules also by counting the active customers of a store. All of
them find the same number, and the samples shown are the beginning of the audience that is listed.
Insights are given as long as the visits of the audience can be counted.
-/

namespace Outreach.Audience

variable {customers rows : List Customer} {rules : List Rule}

/-! ## Counting -/

/-- An audience has as many customers as are counted. -/
theorem length_evaluate (customers : List Customer) (rules : List Rule) :
    (evaluate customers rules).length = size customers rules := by
  rw [evaluate, List.length_mergeSort, size, List.countP_eq_length_filter]

/-- Without rules the audience consists of the active customers. -/
theorem size_nil (customers : List Customer) :
    size customers [] = customers.countP Customer.isActive := by
  refine List.countP_congr fun c _ ↦ ?_
  rw [admits_iff]
  exact and_iff_left trivial

/-- No audience is larger than the one without rules. -/
theorem size_le (customers : List Customer) (rules : List Rule) :
    size customers rules ≤ size customers [] := by
  rw [size_nil]
  refine List.countP_mono_left fun c _ admitted ↦ ?_
  exact (admits_iff.mp admitted).1

/-- The arrangement of the customers does not matter for counting. -/
theorem size_eq_of_perm (p : rows.Perm customers) : size rows rules = size customers rules :=
  p.countP_eq _

/-! ## Samples -/

/-- What is shown are the compact views of the first customers of an audience, as many as are asked
for and as there are. -/
structure Shows (n : Nat) (audience : List Customer) (shown : List Customer.Summary) : Prop where
  length : shown.length = min n audience.length
  views : ∀ i < shown.length, shown[i]? = audience[i]?.map Customer.summary

theorem shows_sample (n : Nat) (audience : List Customer) :
    Shows n audience (sample n audience) := by
  constructor
  · rw [sample, List.length_map, List.length_take]
  · intro i hi
    rw [sample, List.length_map, List.length_take] at hi
    rw [sample, List.getElem?_map, List.getElem?_take_of_lt (by omega)]

/-! ## Percentages -/

/-- How a percentage comes about: there is none of nobody, and otherwise the part is divided by the
whole. -/
inductive Percentage (part whole : Nat) : Float → Prop
  | ofNobody (nobody : whole = 0) : Percentage part whole 0.0
  | quotient (somebody : 0 < whole) :
    Percentage part whole
      (Decimal.roundCents (Decimal.ofCount part / Decimal.ofCount whole * 100.0))

theorem Percentage.eq_zero {part : Nat} {x : Float} (h : Percentage part 0 x) : x = 0.0 := by
  cases h with
  | ofNobody => rfl
  | quotient somebody => exact absurd somebody (Nat.lt_irrefl 0)

theorem percentage_share (part whole : Nat) :
    Percentage part whole (Decimal.roundCents (share part whole)) := by
  unfold share
  split
  · next somebody => exact .quotient somebody
  · next nobody =>
    have zero : Decimal.roundCents 0.0 = 0.0 := by decide +kernel
    rw [zero]
    exact .ofNobody (Nat.eq_zero_of_not_pos nobody)

/-! ## Insights -/

def visitsOf (customers : List Customer) : Nat := (customers.map fun c ↦ c.visits.toNat).sum

/-- The visits of a segment do not depend on its arrangement. -/
theorem visitsOf_evaluate (customers : List Customer) (rules : List Rule) :
    visitsOf (evaluate customers rules) =
      visitsOf (customers.filter (admits (Rule.group rules))) :=
  ((List.mergeSort_perm _ _).map _).sum_nat

/-- Statistics are given exactly if there is room for the sum of all visits, which they tell. -/
theorem Statistics.ofCustomers?_iff (customers : List Customer) :
    ((∃ t, ofCustomers? customers = some t) ↔ visitsOf customers < 2 ^ 64) ∧
      ∀ t, ofCustomers? customers = some t → t.totalVisits.toNat = visitsOf customers := by
  cases customers with
  | nil =>
    refine ⟨iff_of_true ⟨_, rfl⟩ (by decide), fun t ht ↦ ?_⟩
    cases ht
    rfl
  | cons c cs =>
    have begins : (0 : UInt64).toNat + (((c :: cs).map (·.visits)).map UInt64.toNat).sum =
        visitsOf (c :: cs) := by
      rw [List.map_map]
      exact Nat.zero_add _
    constructor
    · rw [← Nat.not_le, ← begins, ← Decimal.foldlM_plus?_eq_none_iff, ← Option.isSome_iff_exists,
        ← Option.not_isSome_iff_eq_none, not_not]
      show (Option.bind _ _).isSome = true ↔ _
      rw [Option.isSome_bind]
      cases ((c :: cs).map (·.visits)).foldlM Decimal.plus? 0 <;> simp
    · intro t ht
      obtain ⟨visits, sum, same⟩ := Option.bind_eq_some_iff.mp ht
      cases same
      rw [← begins]
      exact (Decimal.foldlM_plus?_eq_some_iff.mp sum).symm

/-- What insights into the audience of a list of rules show. -/
structure Describes (sizes : SampleSizes) (customers : List Customer) (rules : List Rule)
    (i : Insights) : Prop where
  size : i.segmentSize = (evaluate customers rules).length
  le_total : i.segmentSize ≤ i.totalCustomers
  total : i.totalCustomers = Audience.size customers []
  sample : Shows sizes.insights (evaluate customers rules) i.sample
  percentage : Percentage i.segmentSize i.totalCustomers i.percentage
  visits : i.statistics.totalVisits.toNat = visitsOf (evaluate customers rules)

/-- Insights are given exactly if there is room for the sum of all visits of the audience. -/
theorem insights?_iff (sizes : SampleSizes) (customers : List Customer) (rules : List Rule) :
    ((∃ i, insights? sizes customers rules = some i) ↔
        visitsOf (evaluate customers rules) < 2 ^ 64) ∧
      ∀ i, insights? sizes customers rules = some i → Describes sizes customers rules i := by
  obtain ⟨given, sum⟩ := Statistics.ofCustomers?_iff (evaluate customers rules)
  constructor
  · rw [← given]
    exact ⟨fun ⟨_, h⟩ ↦ (Option.map_eq_some_iff.mp h).imp fun t ht ↦ ht.1,
      fun ⟨t, ht⟩ ↦ ⟨_, Option.map_eq_some_iff.mpr ⟨t, ht, rfl⟩⟩⟩
  · intro i h
    obtain ⟨t, ht, rfl⟩ := Option.map_eq_some_iff.mp h
    refine ⟨rfl, ?_, (size_nil customers).symm, shows_sample _ _, percentage_share _ _, sum t ht⟩
    show (evaluate customers rules).length ≤ customers.countP Customer.isActive
    rw [length_evaluate, ← size_nil]
    exact size_le customers rules

/-! ## All of them -/

/-- Counting, previewing and insights agree with the audience that is listed. -/
structure CountsAgree (sizes : SampleSizes) (customers : List Customer) (rules : List Rule) :
    Prop where
  counted : size customers rules = (evaluate customers rules).length
  previewed : (preview sizes customers rules).size = (evaluate customers rules).length
  le_total : (evaluate customers rules).length ≤ size customers []
  previewSample :
    Shows sizes.preview (evaluate customers rules) (preview sizes customers rules).sample
  given : (∃ i, insights? sizes customers rules = some i) ↔
    visitsOf (evaluate customers rules) < 2 ^ 64
  described : ∀ i, insights? sizes customers rules = some i → Describes sizes customers rules i
  ofNobody : (∀ c ∈ customers, c.isActive = false) →
    ∃ i, insights? sizes customers rules = some i ∧ i.percentage = 0.0

theorem countsAgree (sizes : SampleSizes) (customers : List Customer) (rules : List Rule) :
    CountsAgree sizes customers rules where
  counted := (length_evaluate customers rules).symm
  previewed := rfl
  le_total := length_evaluate customers rules ▸ size_le customers rules
  previewSample := shows_sample _ _
  given := (insights?_iff sizes customers rules).1
  described := (insights?_iff sizes customers rules).2
  ofNobody := by
    intro inactive
    have nobody : size customers [] = 0 := by
      rw [size_nil]
      exact List.countP_eq_zero.mpr fun c hc ↦ by simp [inactive c hc]
    have none : evaluate customers rules = [] := by
      have most := size_le customers rules
      rw [nobody, ← length_evaluate] at most
      exact List.eq_nil_of_length_eq_zero (Nat.le_zero.mp most)
    obtain ⟨given, described⟩ := insights?_iff sizes customers rules
    obtain ⟨i, h⟩ := given.mpr (by rw [none]; decide)
    have comesAbout := (described i h).percentage
    rw [(described i h).total, nobody] at comesAbout
    exact ⟨i, h, comesAbout.eq_zero⟩

/-- The figures about a store count the active customers as the insights do. -/
theorem active_customerFigures (s : Store) :
    s.customerFigures.active = s.customers.rows.countP Customer.isActive := by
  refine List.countP_congr fun c _ ↦ ?_
  rw [Customer.isActive, beq_iff_eq, decide_eq_true_iff]

/-- For all customers, rules and sizes of samples, what is counted is the number of customers that
are listed, previewed and described. It is at most the number of all active customers, which is the
size of the audience of no rules. The samples are the beginning of the audience, and the percentage
of nobody is zero, without any quotient. For a store it does not matter how its customers are
arranged each time they are gone through, and the number of all active customers is the one among
the figures. Insights are given unless the visits of the audience have no room in 64 bits. -/
theorem counts_agree (sizes : SampleSizes) (rules : List Rule) :
    (∀ customers : List Customer, CountsAgree sizes customers rules) ∧
    ∀ (s : Store) (rows : List Customer), rows.Perm s.customers.rows →
      size rows rules = size s.customers.rows rules ∧
      evaluate rows rules = evaluate s.customers.rows rules ∧
      preview sizes rows rules = preview sizes s.customers.rows rules ∧
      insights? sizes rows rules = insights? sizes s.customers.rows rules ∧
      ∀ i, insights? sizes rows rules = some i → i.totalCustomers = s.customerFigures.active := by
  refine ⟨fun customers ↦ countsAgree sizes customers rules, fun s rows p ↦ ?_⟩
  have same : evaluate rows rules = evaluate s.customers.rows rules :=
    evaluate_eq_of_perm s.customers.nodup p
  have active : rows.countP Customer.isActive = s.customers.rows.countP Customer.isActive :=
    p.countP_eq _
  refine ⟨size_eq_of_perm p, same, ?_, ?_, fun i h ↦ ?_⟩
  · rw [preview, preview, same]
  · rw [insights?, insights?, same, active]
  · rw [((countsAgree sizes rows rules).described i h).total, size_nil, active,
      active_customerFigures]

def visited : Store := { Store.empty with customers := ⟨visitors, by decide⟩ }

/-- Whether gone through forwards or backwards, the store has one frequent visitor, who is the only
one shown although two are asked for. -/
theorem counts_agree_visited :
    [visitor 1 1 "Delhi", visitor 2 9 "Delhi", visitor 3 1 "Pune"].Perm visited.customers.rows ∧
      size [visitor 1 1 "Delhi", visitor 2 9 "Delhi", visitor 3 1 "Pune"] [often] = 1 ∧
      ∃ i, insights? ⟨0, 2⟩ [visitor 1 1 "Delhi", visitor 2 9 "Delhi", visitor 3 1 "Pune"] [often] =
          some i ∧
        i.sample.length = 1 ∧ i.totalCustomers = visited.customerFigures.active := by
  have backwards : [visitor 1 1 "Delhi", visitor 2 9 "Delhi", visitor 3 1 "Pune"].Perm
      visited.customers.rows := List.reverse_perm visitors
  obtain ⟨agree, forStores⟩ := counts_agree ⟨0, 2⟩ [often]
  obtain ⟨size_eq, -, -, -, total⟩ := forStores visited _ backwards
  have one : size visited.customers.rows [often] = 1 := by decide +kernel
  obtain ⟨counted, -, -, -, given, described, -⟩ :=
    agree [visitor 1 1 "Delhi", visitor 2 9 "Delhi", visitor 3 1 "Pune"]
  have few : visitsOf (evaluate [visitor 1 1 "Delhi", visitor 2 9 "Delhi", visitor 3 1 "Pune"]
      [often]) < 2 ^ 64 := by
    rw [visitsOf_evaluate]
    decide +kernel
  obtain ⟨i, h⟩ := given.mpr few
  have shown := (described i h).sample.length
  rw [← counted, size_eq, one] at shown
  exact ⟨backwards, size_eq.trans one, i, h, shown, total i h⟩

end Outreach.Audience
