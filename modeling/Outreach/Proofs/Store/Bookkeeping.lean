import Outreach.Proofs.Decimal.Sums
import Outreach.Proofs.Store.Visits

/-!
# Spending and orders

What a customer has spent is a double to which the amounts of orders are added when they are placed,
and from which they are taken off when they are removed. Doubles are added exactly as long as they
are whole and below 2^53. Then the books are in order: from the moment a customer is made, the
spending is what was given at the beginning and the amounts of the orders that are in the store,
whatever was placed and removed in between. So no order costs more than its customer has spent, and
the floor at zero does nothing.
-/

namespace Outreach

open Decimal

namespace Store

/-! ## The balance of one customer -/

/-- What the orders of a customer cost together, in units. -/
def spentOn (s : Store) (id : Id) : Nat := ((s.amountsOf id).map units).sum

/-- The spending of a customer, if there still is one, is a whole number: a number and the orders that
there are. -/
def Balances (s : Store) (id : Id) (base : Nat) : Prop :=
  ∀ c, s.customers.find? id = some c →
    IsWhole c.totalSpending ∧ units c.totalSpending = base + s.spentOn id

variable {s s' : Store} {id : Id} {base : Nat} {c : Customer} {o : Order} {amount : Float}

theorem spentOn_congr (orders : (s'.amountsOf id).Perm (s.amountsOf id)) :
    s'.spentOn id = s.spentOn id := (orders.map units).sum_nat

theorem spentOn_cons (orders : (s'.amountsOf id).Perm (amount :: s.amountsOf id)) :
    s'.spentOn id = units amount + s.spentOn id := by
  rw [spentOn, (orders.map units).sum_nat, List.map_cons, List.sum_cons, spentOn]

/-- All orders of a customer have whole amounts. -/
def WholeOrders (s : Store) (id : Id) : Prop :=
  ∀ o ∈ s.orders.rows, o.customerId = id → IsWhole o.totalAmount

theorem WholeOrders.of_mem (h : s.WholeOrders id) (there : amount ∈ s.amountsOf id) :
    IsWhole amount := by
  obtain ⟨o, ho, rfl⟩ := List.mem_map.mp there
  obtain ⟨ho, buyer⟩ := List.mem_filter.mp ho
  exact h o ho (beq_iff_eq.mp buyer)

/-- The spending of a customer, if there still is one, is below 2^53. -/
def Modest (s : Store) (id : Id) : Prop :=
  ∀ c, s.customers.find? id = some c → c.totalSpending < wholeLimit

namespace Balances

/-- All that can become of a customer and the orders keeps the balance, if no spending is asked for, all
amounts are whole and the spending stays below 2^53. -/
theorem turn {asked : Customer.Change → Prop} (before : s.Balances id base)
    (turn : Turn asked id s s') (unset : ∀ r, asked r → r.totalSpending = none)
    (whole : s.WholeOrders id) (whole' : s'.WholeOrders id) (modest : s.Modest id)
    (modest' : s'.Modest id) : s'.Balances id base := by
  intro d hd
  have below := modest' d hd
  cases turn with
  | still customer orders =>
    rw [customer] at hd
    rw [spentOn_congr orders]
    exact before d hd
  | gone customer =>
    rw [customer] at hd
    cases hd
  | @changed c r now h found customer orders =>
    rw [customer] at hd
    cases hd
    rw [spentOn_congr orders]
    simp only [Customer.Change.apply, unset r h, Option.getD_none]
    exact before c found
  | @ordered c c' amount now found counted customer orders =>
    rw [customer] at hd
    cases hd
    obtain ⟨spending, balance⟩ := before c found
    have price : IsWhole amount := whole'.of_mem (orders.symm.subset List.mem_cons_self)
    rw [totalSpending_of_withOrder? counted] at below ⊢
    obtain ⟨sum, total⟩ := spending.add price below
    refine ⟨sum, ?_⟩
    rw [spentOn_cons orders]
    omega
  | @removed c amount now found customer orders =>
    rw [customer] at hd
    cases hd
    obtain ⟨spending, balance⟩ := before c found
    have price : IsWhole amount := whole.of_mem (orders.symm.subset List.mem_cons_self)
    obtain ⟨rest, total⟩ := spending.sub price (modest c found)
    refine ⟨rest, ?_⟩
    rw [spentOn_cons orders] at balance
    show units (atLeastZero (c.totalSpending - amount)) = _
    omega

/-- An order that is there costs no more than its customer has spent. -/
theorem le_spending (before : s.Balances id base) (ho : o ∈ s.orders.rows)
    (buyer : o.customerId = id) (found : s.customers.find? id = some c) :
    units o.totalAmount ≤ units c.totalSpending := by
  have there : units o.totalAmount ∈ (s.amountsOf id).map units :=
    List.mem_map_of_mem (List.mem_map_of_mem (List.mem_filter.mpr ⟨ho, beq_iff_eq.mpr buyer⟩))
  have part := List.le_sum_of_mem there
  rw [(before c found).2, spentOn]
  omega

end Balances

end Store

/-! ## Histories -/

namespace Crm

/-- A deed gives a customer a sum of what has been spent. -/
def Deed.SetsSpending (w : Crm) (id : Id) (d : Deed) : Prop :=
  ∃ r, d.Changes w id r ∧ r.totalSpending.isSome = true

variable {settings : Settings.Campaigns}

/-- What holds of the spending of a customer whom a history has made with a record. -/
structure KeepsBooks (s : Store) (c : Customer) : Prop where
  /-- The spending is a whole number: what was given at the beginning, and the amounts of all orders
  of the customer. -/
  spending : ∀ c', s.customers.find? c.id = some c' → IsWhole c'.totalSpending ∧
    units c'.totalSpending = units c.totalSpending + s.spentOn c.id
  /-- If one of them is removed, its amount is taken off, and this does not lead below zero. -/
  removal : ∀ stamp o c', o ∈ s.orders.rows → o.customerId = c.id →
    s.customers.find? c.id = some c' → 0.0 ≤ c'.totalSpending - o.totalAmount ∧
      ∃ c'', (s.deleteOrder stamp o.id).2.customers.find? c.id = some c'' ∧
        units c''.totalSpending + units o.totalAmount = units c'.totalSpending

section Life

variable {before after : List Deed} {birth : Deed} {c : Customer}

/-- From the time when a customer is made on, the balance is kept. -/
theorem balances_history
    (customers : ((before ++ birth :: after).flatMap Deed.enrolled).Nodup)
    (orders : ((before ++ birth :: after).flatMap Deed.placed).Nodup)
    (born : birth.Bears (empty.history settings before) c)
    (unset : ∀ past d, past ++ [d] <+: after →
      ¬d.SetsSpending (empty.history settings (before ++ birth :: past)) c.id)
    (initial : IsWhole c.totalSpending)
    (whole : ∀ past, past <+: after →
      (empty.history settings (before ++ birth :: past)).store.WholeOrders c.id)
    (modest : ∀ past, past <+: after →
      (empty.history settings (before ++ birth :: past)).store.Modest c.id) :
    (empty.history settings (before ++ birth :: after)).store.Balances c.id
      (units c.totalSpending) := by
  refine life_induction (P := fun s ↦ s.Balances c.id (units c.totalSpending)) customers orders
    born ?_ ?_
  · intro s found none d hd
    rw [found] at hd
    cases hd
    rw [Store.spentOn, none]
    exact ⟨initial, rfl⟩
  · intro past d h w w' turn earlier
    have h' : past <+: after := (List.prefix_append _ _).trans h
    refine earlier.turn turn (fun r asked ↦ ?_) (whole _ h') (whole _ h) (modest _ h') (modest _ h)
    rw [← Option.not_isSome_iff_eq_none]
    exact fun given ↦ unset past d h ⟨r, asked, given⟩

end Life

/-- For every history from an empty store in which no identity is given twice, from the time when a
customer is made on, on request or without any checks, as long as no change gives another sum: if the
customer begins with a whole number, all orders of the customer cost whole numbers and the spending
stays below 2^53, then the spending is what was given at the beginning and the amounts of the orders
that are stored, and when one of them is removed, exactly its amount is taken off. -/
theorem spending_exact (settings : Settings.Campaigns) (before after : List Deed) (birth : Deed)
    (c : Customer)
    (customers : ((before ++ birth :: after).flatMap Deed.enrolled).Nodup)
    (orders : ((before ++ birth :: after).flatMap Deed.placed).Nodup)
    (born : birth.Bears (empty.history settings before) c)
    (unset : ∀ past d, past ++ [d] <+: after →
      ¬d.SetsSpending (empty.history settings (before ++ birth :: past)) c.id)
    (initial : IsWhole c.totalSpending)
    (whole : ∀ past, past <+: after →
      (empty.history settings (before ++ birth :: past)).store.WholeOrders c.id)
    (modest : ∀ past, past <+: after →
      (empty.history settings (before ++ birth :: past)).store.Modest c.id) :
    KeepsBooks (empty.history settings (before ++ birth :: after)).store c := by
  have balance : (empty.history settings (before ++ birth :: after)).store.Balances c.id
      (units c.totalSpending) :=
    balances_history customers orders born unset initial whole modest
  refine ⟨balance, fun stamp o c' ho buyer found ↦ ?_⟩
  have le := balance.le_spending ho buyer found
  have spending := (balance c' found).1
  have price : IsWhole o.totalAmount := whole after (List.prefix_refl _) o ho buyer
  have limit := modest after (List.prefix_refl _) c' found
  refine ⟨spending.toIsAmount.zero_le_sub price.toIsAmount le, _,
    Store.find?_deleteOrder ho buyer found stamp, ?_⟩
  show units (atLeastZero (c'.totalSpending - o.totalAmount)) + _ = _
  rw [(spending.sub price limit).2, Nat.sub_add_cancel le]

/-- A customer who has spent five places two orders of ten each, of which one is then removed. -/
theorem spending_exact_ropesForAnn :
    let ann : Customer.New := { newcomer "Ann" "ann@xeno.in" with totalSpending := 5 }
    let c := ann.customer ⟨1⟩ (tick 1).now
    let deeds := Deed.creation (tick 1) ann :: ropesForAnn
    (deeds.flatMap Deed.enrolled).Nodup ∧ (deeds.flatMap Deed.placed).Nodup ∧
      (Deed.creation (tick 1) ann).Bears (empty.history .usual []) c ∧
      (∀ past d, past ++ [d] <+: ropesForAnn →
        ¬d.SetsSpending (since .usual [] (tick 1) ann past) c.id) ∧
      IsWhole c.totalSpending ∧
      (∀ past, past <+: ropesForAnn → (since .usual [] (tick 1) ann past).store.WholeOrders c.id) ∧
      (∀ past, past <+: ropesForAnn → (since .usual [] (tick 1) ann past).store.Modest c.id) ∧
      ∃ c', (since .usual [] (tick 1) ann ropesForAnn).store.customers.find? c.id = some c' ∧
        units c'.totalSpending = 15 * one := by
  intro ann c deeds
  have customers : (deeds.flatMap Deed.enrolled).Nodup := by decide
  have orders : (deeds.flatMap Deed.placed).Nodup := by decide
  have born : (Deed.creation (tick 1) ann).Bears (empty.history .usual []) c :=
    .creation (tick 1) ann (made_of_isOk (by decide +kernel))
  have unset : ∀ past d, past ++ [d] <+: ropesForAnn →
      ¬d.SetsSpending (since .usual [] (tick 1) ann past) c.id := by
    rintro past d h ⟨r, changes, -⟩
    have hd : d ∈ ropesForAnn := h.subset (List.mem_append_right _ List.mem_cons_self)
    simp only [ropesForAnn, List.mem_cons, List.not_mem_nil, or_false] at hd
    rcases hd with rfl | rfl | rfl | rfl <;> cases changes.1
  have initial : IsWhole c.totalSpending := by decide +kernel
  have whole : ∀ past, past <+: ropesForAnn →
      (since .usual [] (tick 1) ann past).store.WholeOrders c.id := by
    unfold Store.WholeOrders
    intro past h
    rw [← List.mem_inits] at h
    revert past
    decide +kernel
  have modest : ∀ past, past <+: ropesForAnn →
      (since .usual [] (tick 1) ann past).store.Modest c.id := by
    intro past h d found
    have each : ∀ past ∈ ropesForAnn.inits,
        ∀ d ∈ (since .usual [] (tick 1) ann past).store.customers.rows, d.totalSpending < wholeLimit := by
      decide +kernel
    exact each past ((List.mem_inits ..).mpr h) d (Table.mem_of_find? found)
  have books := spending_exact .usual [] ropesForAnn (.creation (tick 1) ann) c customers orders born
    unset initial whole modest
  have there : ((since .usual [] (tick 1) ann ropesForAnn).store.customers.contains c.id) = true := by
    decide +kernel
  obtain ⟨c', found⟩ := Option.isSome_iff_exists.mp there
  have total : units c.totalSpending + (since .usual [] (tick 1) ann ropesForAnn).store.spentOn c.id =
      15 * one := by
    decide +kernel
  exact ⟨customers, orders, born, unset, initial, whole, modest, c', found,
    (books.spending c' found).2.trans total⟩

end Crm

end Outreach
