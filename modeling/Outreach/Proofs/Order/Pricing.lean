import Outreach.Order.Request
import Outreach.Proofs.Decimal.Amounts
import Outreach.Proofs.Text.Blank

/-!
# Proper prices

Every line that passes pricing names a product, has a quantity and a price that is an amount, and its
total is the product of both; and the total of the order is an amount that differs from the sum of
the lines by a hundredth at most. Since no amount is below zero, the difference is a number in any
case, also where a line or the sum of all is infinite, and the comparison means what it says.
-/

namespace Outreach.Order

open Decimal

/-! ## Lines -/

/-- A line as pricing makes it. -/
structure Item.Proper (i : Item) : Prop where
  /-- The product has a name, -/
  named : Text.isBlankText i.productName = false
  trimmed : Text.Trimmed i.productName.toList
  quantity : 1 ≤ i.quantity
  finite : i.price.isFinite = true
  price : 0.0 ≤ i.price
  /-- The total is that of the whole quantity. -/
  total : i.total = i.quantity.toUInt64.toFloat * i.price

/-- An amount is finite and at least zero. -/
theorem of_isAmount {x : Float} (h : isAmount x = true) : x.isFinite = true ∧ 0.0 ≤ x := by
  simp only [isAmount, Bool.and_eq_true, Bool.not_eq_true', decide_eq_false_iff_not] at h
  exact ⟨h.1, le_of_not_lt (isNaN_of_isFinite h.1) rfl h.2⟩

/-- What pricing makes of a line. -/
theorem Item.New.proper_of_priced {r : Item.New} {i : Item} (h : r.priced = .ok i) : i.Proper := by
  simp only [priced, bind, Except.bind, throw, throwThe, MonadExceptOf.throw, pure, Except.pure]
    at h
  split at h
  · cases h
  · next named =>
    split at h
    · cases h
    · next quantity =>
      split at h
      · cases h
      · next price =>
        cases h
        rw [Bool.not_eq_true', Bool.not_eq_false] at price
        obtain ⟨finite, above⟩ := of_isAmount price
        rw [Bool.not_eq_true] at named
        exact {
          named := by rwa [Text.isBlankText_trim]
          trimmed := by
            rw [Text.toList_trim]
            exact Text.trimmed_trimChars _
          quantity := UInt32.not_lt.mp quantity
          finite, price := above, total := rfl }

/-- What pricing makes of several lines: each as it is made alone, and as many as before. -/
theorem Item.New.proper_of_mapM {rs : List Item.New} {items : List Item}
    (h : rs.mapM priced = .ok items) : items.length = rs.length ∧ ∀ i ∈ items, i.Proper := by
  induction rs generalizing items with
  | nil =>
    cases h
    exact ⟨rfl, by simp⟩
  | cons r rs ih =>
    rw [List.mapM_cons] at h
    cases first : r.priced with
    | error f =>
      rw [first] at h
      cases h
    | ok i =>
      cases rest : rs.mapM priced with
      | error f =>
        rw [first, rest] at h
        cases h
      | ok is =>
        rw [first, rest] at h
        cases h
        obtain ⟨length, proper⟩ := ih rest
        refine ⟨congrArg (· + 1) length, fun j hj ↦ ?_⟩
        rcases List.mem_cons.mp hj with rfl | hj
        · exact proper_of_priced first
        · exact proper j hj

/-- The total of a line is at least zero. -/
theorem Item.Proper.zero_le_total {i : Item} (h : i.Proper) : 0.0 ≤ i.total := by
  rw [h.total]
  exact zero_le_mul (zero_le_toFloat _) h.price (isFinite_toFloat _) h.finite

/-! ## Orders -/

/-- Lines and a total as pricing lets them pass. -/
structure Priced (items : List Item) (totalAmount : Float) : Prop where
  nonempty : items ≠ []
  item : ∀ i ∈ items, i.Proper
  /-- The total is finite, -/
  finite : totalAmount.isFinite = true
  /-- not below zero, -/
  amount : 0.0 ≤ totalAmount
  /-- and up to a hundredth the sum of the lines. -/
  sum : (Decimal.sum (items.map (·.total)) - totalAmount).abs ≤ 0.01

/-- What passes pricing has a proper price. -/
theorem New.priced_of_pricedItems {r : New} {items : List Item} (h : r.pricedItems = .ok items) :
    Priced items r.totalAmount := by
  simp only [pricedItems, bind, Except.bind, throw, throwThe, MonadExceptOf.throw, pure,
    Except.pure] at h
  split at h
  · cases h
  · next nonempty =>
    split at h
    · cases h
    · next amount =>
      rw [Bool.not_eq_true', Bool.not_eq_false] at amount
      obtain ⟨finite, above⟩ := of_isAmount amount
      split at h
      · cases h
      · next items' lines =>
        obtain ⟨length, proper⟩ := Item.New.proper_of_mapM lines
        split at h
        · cases h
        · next close =>
          cases h
          have sum : 0.0 ≤ Decimal.sum (items.map (·.total)) := by
            refine zero_le_sum fun x hx ↦ ?_
            obtain ⟨i, hi, rfl⟩ := List.mem_map.mp hx
            exact (proper i hi).zero_le_total
          have number := isNaN_abs (isNaN_sub (isNaN_of_zero_le sum) finite)
          exact {
            nonempty := by
              rw [List.isEmpty_iff] at nonempty
              rwa [← List.length_pos_iff_ne_nil, length, List.length_pos_iff_ne_nil]
            item := proper
            finite, amount := above
            sum := le_of_not_lt rfl number close }

end Outreach.Order
