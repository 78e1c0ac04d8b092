import Outreach.Proofs.Decimal.Sums
import Outreach.Proofs.Store.Room

/-!
# Spending beyond all bounds

Every spending and every amount that a request gives is checked to be finite and not below zero. What
a customer has spent, though, is the sum of any number of them, and the sum is not checked: it is never
below zero, but from 2^1024 on it is infinite, and then no order that is removed makes it finite
again. There is room for as many orders as could ever be placed, unless the amounts are as large as no
sum of money is.
-/

namespace Outreach

open Decimal

/-! ## Checks -/

/-- What passes the check of a spending is an amount. -/
theorem Customer.checkSpending_eq_ok_iff {x : Float} :
    checkSpending x = .ok () ↔ IsAmount x := by
  unfold checkSpending
  rw [refuse_eq_ok, Bool.or_eq_true, Bool.not_eq_true', decide_eq_true_eq, not_or,
    Bool.not_eq_false]
  constructor
  · rintro ⟨finite, above⟩
    exact ⟨finite, le_of_not_lt (isNaN_of_isFinite finite) rfl above⟩
  · rintro ⟨finite, above⟩
    refine ⟨finite, fun below ↦ ?_⟩
    rw [lt_iff, lt_eq_not_le (isNaN_of_zero_le above) rfl, Bool.not_eq_true', ← Bool.not_eq_true]
      at below
    exact below (le_iff.mp above)

theorem Customer.New.isAmount_of_check {r : New} (h : r.check = .ok ()) :
    IsAmount r.totalSpending := by
  obtain ⟨-, rest⟩ := seq_eq_ok.mp h
  obtain ⟨-, spending⟩ := seq_eq_ok.mp rest
  exact checkSpending_eq_ok_iff.mp spending

theorem Customer.Change.isAmount_of_check {r : Change} (h : r.check = .ok ()) :
    ∀ x, r.totalSpending = some x → IsAmount x := by
  obtain ⟨-, rest⟩ := seq_eq_ok.mp h
  obtain ⟨-, spending⟩ := seq_eq_ok.mp rest
  exact fun x hx ↦ checkSpending_eq_ok_iff.mp (forM_eq_ok.mp spending x hx)

/-- What passes pricing costs an amount. -/
theorem Order.Priced.isAmount {items : List Item} {x : Float} (h : Priced items x) : IsAmount x :=
  ⟨h.finite, h.amount⟩

/-! ## From zero upwards -/

/-- Nobody begins with less than zero, and no order leads below it. -/
theorem Customer.lasting_zero_le : Lasting fun c ↦ 0.0 ≤ c.totalSpending where
  made _ _ _ valid := (New.isAmount_of_check valid).zero_le
  changed _ _ _ valid before :=
    getD_cases (P := fun x : Float ↦ 0.0 ≤ x)
      (fun x hx ↦ (Change.isAmount_of_check valid x hx).zero_le) before
  ordered _ _ _ _ _ priced counted before := by
    rw [Store.totalSpending_of_withOrder? counted]
    exact zero_le_add before priced.amount
  unordered c amount _ _ := zero_le_atLeastZero (c.totalSpending - amount)

theorem Order.lasting_zero_le : Lasting fun o ↦ 0.0 ≤ o.totalAmount where
  made _ _ _ _ priced := priced.amount
  moved _ _ _ before := before

/-- An order for demonstration does not cost less than nothing. -/
theorem Demo.zero_le_totalAmount (id customerId : Id) (count : UInt64) (now : Calendar.Instant)
    (chance : Chance) : 0.0 ≤ (order id customerId count now chance).totalAmount := by
  refine zero_le_sum fun x hx ↦ ?_
  obtain ⟨i, hi, rfl⟩ := List.mem_map.mp hx
  obtain ⟨n, -, rfl⟩ := List.mem_map.mp hi
  exact zero_le_mul (zero_le_toFloat _) (zero_le_toFloat _) (isFinite_toFloat _) (isFinite_toFloat _)

/-! ## Bounds -/

/-- What a customer has spent is an amount of so many times 2^k units at most. -/
structure Customer.Within (k most : Nat) (c : Customer) : Prop where
  amount : IsAmount c.totalSpending
  le : units c.totalSpending ≤ most * 2 ^ k

namespace Store

variable {s : Store} {stamp : Stamp} {k most : Nat} {c : Customer}

/-- A command gives no spending and no amount beyond 2^k units. -/
def SpendsAtMost (k : Nat) : Store.Command → Prop
  | .createCustomer r => units r.totalSpending ≤ 2 ^ k
  | .updateCustomer _ r => ∀ x, r.totalSpending = some x → units x ≤ 2 ^ k
  | .createOrder r => units r.totalAmount ≤ 2 ^ k
  | _ => True

end Store

namespace Customer.Within

variable {k m m' : Nat} {c : Customer}

theorem mono (h : c.Within k m) (le : m ≤ m') : c.Within k m' :=
  ⟨h.amount, Nat.le_trans h.le (Nat.mul_le_mul_right _ le)⟩

/-- What is given is within the bound at once. -/
theorem of_given (amount : IsAmount c.totalSpending) (given : units c.totalSpending ≤ 2 ^ k)
    (some : 0 < m) : c.Within k m :=
  ⟨amount, Nat.le_trans given (Nat.le_mul_of_pos_left _ some)⟩

end Customer.Within

namespace Store

variable {s : Store} {stamp : Stamp} {k most : Nat} {c : Customer}

/-- The most that a customer has spent grows with the orders that are placed only, if no larger
amount is given. -/
theorem within_obey (before : ∀ c ∈ s.customers.rows, c.Within k most)
    (orders : ∀ o ∈ s.orders.rows, 0.0 ≤ o.totalAmount) (some : 0 < most) (command : Store.Command)
    (given : SpendsAtMost k command) (digits : most + placings command ≤ 2 ^ 53)
    (fits : (most + placings command) * 2 ^ k < overflow) :
    ∀ c ∈ (s.obey stamp command).customers.rows, c.Within k (most + placings command) := by
  intro c hc
  cases s.customerOrigin_obey stamp command c hc with
  | kept _ h => exact (before c h).mono (Nat.le_add_right _ _)
  | made r valid =>
    exact .of_given (Customer.New.isAmount_of_check valid) given (Nat.add_pos_left some _)
  | @changed id r valid c h =>
    cases new : r.totalSpending with
    | none =>
      have same : (r.apply c stamp.now).totalSpending = c.totalSpending := by
        simp only [Customer.Change.apply, new, Option.getD_none]
      obtain ⟨amount, le⟩ := before c h
      exact ⟨same ▸ amount, same ▸ le⟩
    | some x =>
      have spending : (r.apply c stamp.now).totalSpending = x := by
        simp only [Customer.Change.apply, new, Option.getD_some]
      refine .of_given ?_ ?_ (Nat.add_pos_left some _)
      · exact spending ▸ Customer.Change.isAmount_of_check valid x new
      · exact spending ▸ given x new
  | @ordered r items priced c c' h counted =>
    have price : IsAmount r.totalAmount := (Order.New.priced_of_pricedItems priced).isAmount
    obtain ⟨amount, le⟩ := before c h
    obtain ⟨sum, total⟩ := amount.add_le price le given digits fits
    rw [← totalSpending_of_withOrder? counted] at sum total
    exact ⟨sum, total⟩
  | @unordered id o there c h =>
    obtain ⟨amount, le⟩ := before c h
    obtain ⟨rest, less⟩ := amount.atLeastZero_sub_le (orders o there)
    exact ⟨rest, Nat.le_trans less le⟩

/-- What holds of the spending of all customers. -/
structure SpendingRules (s : Store) : Prop where
  zero_le : ∀ c ∈ s.customers.rows, 0.0 ≤ c.totalSpending
  /-- After an order has been placed, the spending is finite exactly if it was so before and the exact
  sum, rounded to 53 digits, is below 2^1024; and then it is this sum. -/
  placed : ∀ stamp r o, (s.createOrder stamp r).1 = .ok o →
    ∃ c c', s.customers.find? r.customerId = some c ∧
      (s.createOrder stamp r).2.customers.find? r.customerId = some c' ∧
      let sum := rounded (units c.totalSpending + units r.totalAmount)
      (c'.totalSpending.isFinite = true ↔ c.totalSpending.isFinite = true ∧ sum < overflow) ∧
      (c'.totalSpending.isFinite = true → units c'.totalSpending = sum)
  /-- An order that is removed leaves finite what was finite, and makes it no larger. -/
  removed : ∀ stamp o c, o ∈ s.orders.rows → s.customers.find? o.customerId = some c →
    IsAmount c.totalSpending →
    ∃ c', (s.deleteOrder stamp o.id).2.customers.find? o.customerId = some c' ∧
      IsAmount c'.totalSpending ∧ units c'.totalSpending ≤ units c.totalSpending

/-- The rules hold where no spending and no amount is below zero. -/
theorem spendingRules (customers : ∀ c ∈ s.customers.rows, 0.0 ≤ c.totalSpending)
    (orders : ∀ o ∈ s.orders.rows, 0.0 ≤ o.totalAmount) : s.SpendingRules where
  zero_le := customers
  placed stamp r o done := by
    obtain ⟨items, c, c', priced, found, counted, found'⟩ := exists_of_placed done
    have price : IsAmount r.totalAmount := (Order.New.priced_of_pricedItems priced).isAmount
    have above := customers c (Table.mem_of_find? found)
    have finite : (c.totalSpending + r.totalAmount).isFinite = true ↔
        c.totalSpending.isFinite = true ∧
          rounded (units c.totalSpending + units r.totalAmount) < overflow := by
      constructor
      · intro sum
        have spending : IsAmount c.totalSpending := ⟨price.isFinite_of_add above sum, above⟩
        exact ⟨spending.finite, (spending.isFinite_add_iff price).mp sum⟩
      · rintro ⟨spending, small⟩
        exact (IsAmount.isFinite_add_iff ⟨spending, above⟩ price).mpr small
    refine ⟨c, c', found, found', ?_⟩
    rw [totalSpending_of_withOrder? counted]
    refine ⟨finite, fun sum ↦ ?_⟩
    obtain ⟨spending, small⟩ := finite.mp sum
    exact (IsAmount.add ⟨spending, above⟩ price small).2
  removed stamp o c ho found spending := by
    obtain ⟨amount, le⟩ := spending.atLeastZero_sub_le (orders o ho)
    exact ⟨_, find?_deleteOrder ho rfl found stamp, amount, le⟩

end Store

/-! ## Histories -/

/-- A customer for demonstration has spent less than 100000. -/
theorem Demo.units_totalSpending_le (name : String) (id : Id) (now : Calendar.Instant)
    (chance : Chance) : units (customer name id now chance).totalSpending ≤ 100000 * one := by
  have throw : between 0 100000 (chance 2) ≤ 100000 := by
    simp only [between]
    omega
  show units (ofCount _) ≤ _
  rw [units_ofCount (Nat.le_trans throw (by decide))]
  exact Nat.mul_le_mul_right one throw

namespace Crm

/-- A deed gives no spending and no amount beyond 2^k units. -/
def Deed.SpendsAtMost (k : Nat) : Deed → Prop
  | .event _ (.command (.records c)) => Store.SpendsAtMost k c
  | .event _ _ => True
  | .insert c => units c.totalSpending ≤ 2 ^ k
  | .fill .. => 100000 * one ≤ 2 ^ k

variable {settings : Settings.Campaigns} {w : Crm} {k most : Nat}

theorem within_act {d : Deed} (before : ∀ c ∈ w.store.customers.rows, c.Within k most)
    (orders : ∀ o ∈ w.store.orders.rows, 0.0 ≤ o.totalAmount) (some : 0 < most)
    (inserted : ∀ c, d = .insert c → IsAmount c.totalSpending) (given : d.SpendsAtMost k)
    (digits : most + d.placings ≤ 2 ^ 53) (fits : (most + d.placings) * 2 ^ k < overflow) :
    ∀ c ∈ (w.act settings d).store.customers.rows, c.Within k (most + d.placings) := by
  cases d with
  | event stamp e =>
    rcases w.records_or_sameRecords settings stamp e with ⟨c, rfl, -⟩ | same
    · exact Store.within_obey before orders some c given digits fits
    · simp only [act, same.customers]
      exact fun c hc ↦ (before c hc).mono (Nat.le_add_right _ _)
  | insert c => exact Store.forall_customers_insert before (.of_given (inserted c rfl) given some)
  | fill now admin ids chance =>
    rw [store_act_fill]
    refine Demo.forall_customers_seed now admin ids chance (fun name _ id now chance ↦ ?_) before
    exact .of_given (isAmount_ofCount _)
      (Nat.le_trans (Demo.units_totalSpending_le name id now chance) given) some

/-- No order in a history costs less than nothing. -/
theorem zero_le_totalAmount_history (orders : ∀ o ∈ w.store.orders.rows, 0.0 ≤ o.totalAmount)
    (deeds : List Deed) : ∀ o ∈ (w.history settings deeds).store.orders.rows, 0.0 ≤ o.totalAmount :=
  forall_orders_history Order.lasting_zero_le Demo.zero_le_totalAmount orders deeds

/-- Nobody has spent more than 2^k units at the beginning and as many for each order. -/
theorem within_history {deeds : List Deed} (before : ∀ c ∈ w.store.customers.rows, c.Within k most)
    (orders : ∀ o ∈ w.store.orders.rows, 0.0 ≤ o.totalAmount) (some : 0 < most)
    (inserted : ∀ c, .insert c ∈ deeds → IsAmount c.totalSpending)
    (given : ∀ d ∈ deeds, d.SpendsAtMost k) (digits : most + placings deeds ≤ 2 ^ 53)
    (fits : (most + placings deeds) * 2 ^ k < overflow) :
    ∀ c ∈ (w.history settings deeds).store.customers.rows, c.Within k (most + placings deeds) := by
  induction deeds generalizing w most with
  | nil => exact before
  | cons d deeds ih =>
    have count : placings (d :: deeds) = d.placings + placings deeds := rfl
    rw [count, ← Nat.add_assoc] at digits fits ⊢
    have fewer : most + d.placings ≤ most + d.placings + placings deeds := Nat.le_add_right _ _
    have step : ∀ c ∈ (w.act settings d).store.customers.rows, c.Within k (most + d.placings) :=
      within_act before orders some (fun c hc ↦ inserted c (hc ▸ List.mem_cons_self))
        (given d List.mem_cons_self) (Nat.le_trans fewer digits)
        (Nat.lt_of_le_of_lt (Nat.mul_le_mul_right _ fewer) fits)
    exact ih step (zero_le_totalAmount_history orders [d]) (Nat.add_pos_left some _)
      (fun c hc ↦ inserted c (List.mem_cons_of_mem _ hc))
      (fun e he ↦ given e (List.mem_cons_of_mem _ he)) digits fits

/-- In every state of every history in which customers are added as they are only with amounts, nobody
has spent less than zero; an order that is placed leaves the spending finite exactly if the exact sum,
rounded, is below 2^1024, and an order that is removed always does. If no spending and no amount beyond
2^k units was given, everybody has spent an amount, of 2^k units and as many for each order at most,
as long as there is room for this below 2^1024. -/
theorem spending_rules (settings : Settings.Campaigns) (deeds : List Deed)
    (inserted : ∀ c, .insert c ∈ deeds → IsAmount c.totalSpending) :
    let s := (empty.history settings deeds).store
    s.SpendingRules ∧
    ∀ k, (∀ d ∈ deeds, d.SpendsAtMost k) → placings deeds < 2 ^ 53 →
      (placings deeds + 1) * 2 ^ k < overflow →
      ∀ c ∈ s.customers.rows, IsAmount c.totalSpending ∧
        units c.totalSpending ≤ (placings deeds + 1) * 2 ^ k := by
  intro s
  have customers : ∀ c ∈ s.customers.rows, 0.0 ≤ c.totalSpending :=
    forall_customers_history Customer.lasting_zero_le
      (fun name _ id now chance ↦ (isAmount_ofCount _).zero_le)
      (fun c hc ↦ (inserted c hc).zero_le) fun c hc ↦ nomatch hc
  have orders : ∀ o ∈ s.orders.rows, 0.0 ≤ o.totalAmount :=
    zero_le_totalAmount_history (w := empty) (fun o ho ↦ nomatch ho) deeds
  refine ⟨Store.spendingRules customers orders, fun k given digits fits c hc ↦ ?_⟩
  rw [Nat.add_comm] at fits ⊢
  have within : ∀ c ∈ s.customers.rows, c.Within k (1 + placings deeds) :=
    within_history (fun c hc ↦ nomatch hc) (fun o ho ↦ nomatch ho) Nat.one_pos inserted given
      (Nat.add_comm .. ▸ digits) fits
  exact ⟨(within c hc).amount, (within c hc).le⟩

/-- A customer who has spent five places orders of ten. -/
def modestPurchases : List Deed :=
  .creation (tick 1) { newcomer "Ann" "ann@xeno.in" with totalSpending := 5 } :: ropesForAnn

/-- No amount is larger than sixteen, and three orders are placed. -/
theorem spending_rules_modestPurchases :
    (∀ c, .insert c ∈ modestPurchases → IsAmount c.totalSpending) ∧
      (∀ d ∈ modestPurchases, d.SpendsAtMost 1078) ∧ placings modestPurchases = 3 ∧
      (empty.history .usual modestPurchases).store.SpendingRules ∧
      ∀ c ∈ (empty.history .usual modestPurchases).store.customers.rows, IsAmount c.totalSpending := by
  have inserted : ∀ c, .insert c ∈ modestPurchases → IsAmount c.totalSpending := by
    intro c hc
    simp only [modestPurchases, ropesForAnn, Deed.creation, List.mem_cons, List.not_mem_nil,
      or_false] at hc
    rcases hc with h | h | h | h | h <;> cases h
  have given : ∀ d ∈ modestPurchases, d.SpendsAtMost 1078 := by
    intro d hd
    simp only [modestPurchases, ropesForAnn, List.mem_cons, List.not_mem_nil, or_false] at hd
    have five : units 5 ≤ 2 ^ 1078 := by decide +kernel
    have ten : units 10 ≤ 2 ^ 1078 := by decide +kernel
    rcases hd with rfl | rfl | rfl | rfl | rfl
    · exact five
    · exact ten
    · exact ten
    · exact ten
    · trivial
  obtain ⟨rules, bound⟩ := spending_rules .usual modestPurchases inserted
  have few : placings modestPurchases = 3 := by decide
  have digits : placings modestPurchases < 2 ^ 53 := by
    rw [few]
    decide
  have fits : (placings modestPurchases + 1) * 2 ^ 1078 < overflow := by
    rw [few]
    decide +kernel
  exact ⟨inserted, given, few, rules, fun c hc ↦ (bound 1078 given digits fits c hc).1⟩

/-- A customer has spent 10^308 and places an order of as much. -/
def boundless : List Deed :=
  [.creation (tick 1) { newcomer "Ann" "ann@xeno.in" with totalSpending := 1e308 },
    .event (tick 2) (.command (.records (.createOrder
      ⟨⟨1⟩, [⟨"Castle", 1, 1e308⟩], 1e308, .pending, .paid, .upi, none, none⟩)))]

/-- Two amounts together are none. -/
theorem spending_overflows :
    ¬∀ c ∈ (empty.history .usual boundless).store.customers.rows, IsAmount c.totalSpending := by
  decide +kernel

end Crm

end Outreach
