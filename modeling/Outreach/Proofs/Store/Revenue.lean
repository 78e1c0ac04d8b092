import Mathlib.Data.List.Induction
import Outreach.Proofs.Calendar.Months
import Outreach.Proofs.Calendar.Order
import Outreach.Store.Figures

/-!
# Revenue by month

The revenue of the last half year is a chart of the fulfilled orders that are dated in it: the months
ascend, there is one for every month with such an order and for no other, and each tells how many they
are and what they add up to in the order of the table. So every order in the window is told of in
exactly one month, and the months tell of no more orders than count as revenue altogether.
-/

namespace Outreach

open Calendar

namespace Order

/-- The month that an order is dated in, as year and month. -/
def month (o : Order) : Int × Nat := (o.orderDate.date.year, o.orderDate.date.month)

/-- The order has been shipped, and may have been delivered. -/
def Fulfilled (o : Order) : Prop := o.status = .shipped ∨ o.status = .delivered

instance (o : Order) : Decidable o.Fulfilled := inferInstanceAs (Decidable (_ ∨ _))

theorem isFulfilled_iff {o : Order} : o.status.isFulfilled = true ↔ o.Fulfilled := by
  rw [Fulfilled]
  cases o.status <;> decide

end Order

namespace Store

/-- The orders of a month, in the order of the list. -/
def ordersIn (orders : List Order) (k : Int × Nat) : List Order := orders.filter (·.month = k)

namespace MonthlyRevenue

def key (m : MonthlyRevenue) : Int × Nat := (m.year, m.month)

def Earlier (a b : MonthlyRevenue) : Prop := a.year < b.year ∨ a.year = b.year ∧ a.month < b.month

/-- What is told of a month after an order more. -/
def add (m : MonthlyRevenue) (amount : Float) : MonthlyRevenue :=
  { m with revenue := m.revenue + amount, orders := m.orders + 1 }

/-- What there is to tell of a month with these orders. -/
def ofOrders (k : Int × Nat) (here : List Order) : MonthlyRevenue :=
  ⟨k.1, k.2, Decimal.sum (here.map (·.totalAmount)), here.length⟩

variable {a b c m : MonthlyRevenue} {k : Int × Nat}

@[simp] theorem key_ofOrders (k : Int × Nat) (here : List Order) : (ofOrders k here).key = k := rfl

theorem key_eq_iff : m.key = k ↔ m.year = k.1 ∧ m.month = k.2 := Prod.ext_iff

theorem before_iff : m.before k.1 k.2 = true ↔ m.Earlier (ofOrders k []) := by
  simp [before, Earlier, ofOrders]

theorem Earlier.key_ne (h : a.Earlier b) : a.key ≠ b.key := by
  intro same
  obtain ⟨year, month⟩ := Prod.ext_iff.mp same
  dsimp only [key] at year month
  rcases h with before | ⟨-, before⟩ <;> omega

/-- Which month is told of decides, not what is told of it. -/
theorem Earlier.of_key_eq (h : a.Earlier b) (same : b.key = c.key) : a.Earlier c := by
  obtain ⟨year, month⟩ := Prod.ext_iff.mp same
  dsimp only [key] at year month
  rw [Earlier] at *
  omega

theorem Earlier.trans (h : a.Earlier b) (h' : b.Earlier c) : a.Earlier c := by
  rw [Earlier] at *
  omega

theorem ofOrders_append (k : Int × Nat) (here : List Order) (o : Order) :
    ofOrders k (here ++ [o]) = (ofOrders k here).add o.totalAmount := by
  simp [ofOrders, add, Decimal.sum]

end MonthlyRevenue

open MonthlyRevenue

variable {orders : List Order} {ms : List MonthlyRevenue} {first m : MonthlyRevenue}
  {k : Int × Nat} {amount : Float}

/-- What is told of a month in a list, which is nothing for a month that is not in it. -/
def toldOf (ms : List MonthlyRevenue) (k : Int × Nat) : MonthlyRevenue :=
  (ms.find? (·.key = k)).getD (ofOrders k [])

theorem toldOf_cons (first : MonthlyRevenue) (ms : List MonthlyRevenue) (k : Int × Nat) :
    toldOf (first :: ms) k = if first.key = k then first else toldOf ms k := by
  rw [toldOf, List.find?_cons]
  split <;> simp_all [toldOf]

theorem toldOf_of_forall_ne (h : ∀ m ∈ ms, m.key ≠ k) : toldOf ms k = ofOrders k [] := by
  rw [toldOf, List.find?_eq_none.mpr]
  · rfl
  · simpa using h

theorem toldOf_mem (h : ∃ m ∈ ms, m.key = k) : toldOf ms k ∈ ms ∧ (toldOf ms k).key = k := by
  obtain ⟨m, found⟩ : ∃ m, ms.find? (·.key = k) = some m :=
    Option.isSome_iff_exists.mp (List.find?_isSome.mpr (by simpa using h))
  rw [toldOf, found]
  exact ⟨List.mem_of_find?_eq_some found, by simpa using List.find?_some found⟩

@[simp] theorem key_toldOf (ms : List MonthlyRevenue) (k : Int × Nat) : (toldOf ms k).key = k := by
  by_cases h : ∃ m ∈ ms, m.key = k
  · exact (toldOf_mem h).2
  · rw [toldOf_of_forall_ne fun m hm same ↦ h ⟨m, hm, same⟩, key_ofOrders]

/-! ## One order more -/

/-- The three places that an order's month can have next to the first month of a list. -/
theorem addToMonth_cons (k : Int × Nat) (amount : Float) (first : MonthlyRevenue)
    (ms : List MonthlyRevenue) :
    (first.Earlier (ofOrders k []) ∧
      addToMonth k.1 k.2 amount (first :: ms) = first :: addToMonth k.1 k.2 amount ms) ∨
    (first.key = k ∧ addToMonth k.1 k.2 amount (first :: ms) = first.add amount :: ms) ∨
    ((ofOrders k []).Earlier first ∧
      addToMonth k.1 k.2 amount (first :: ms) = (ofOrders k []).add amount :: first :: ms) := by
  simp only [addToMonth]
  split
  · next before => exact .inl ⟨before_iff.mp before, rfl⟩
  · next notBefore =>
    split
    · next same => exact .inr (.inl ⟨key_eq_iff.mpr same, rfl⟩)
    · next other =>
      refine .inr (.inr ⟨?_, rfl⟩)
      rw [before_iff] at notBefore
      dsimp only [Earlier, ofOrders] at *
      omega

/-- In an ascending list of months all are as they were but the one that the order belongs to. -/
theorem mem_addToMonth (ascending : ms.Pairwise Earlier) :
    m ∈ addToMonth k.1 k.2 amount ms ↔ m ∈ ms ∧ m.key ≠ k ∨ m = (toldOf ms k).add amount := by
  induction ms with
  | nil => exact List.mem_singleton.trans (by simp [toldOf, ofOrders, add, Decimal.sum])
  | cons first ms ih =>
    obtain ⟨later, rest⟩ := List.pairwise_cons.mp ascending
    rcases addToMonth_cons k amount first ms with ⟨before, eq⟩ | ⟨here, eq⟩ | ⟨behind, eq⟩
    · have other : first.key ≠ k := before.key_ne
      rw [eq, toldOf_cons, if_neg other, List.mem_cons, ih rest, List.mem_cons]
      grind
    · -- no month behind the one of the order is the same again
      have others : ∀ m ∈ ms, m.key ≠ k := fun m hm ↦ here ▸ (later m hm).key_ne.symm
      rw [eq, toldOf_cons, if_pos here, List.mem_cons, List.mem_cons]
      grind
    · have others : ∀ m ∈ first :: ms, m.key ≠ k := by
        rw [List.forall_mem_cons]
        exact ⟨behind.key_ne.symm, fun m hm ↦ (behind.trans (later m hm)).key_ne.symm⟩
      rw [eq, toldOf_of_forall_ne others, List.mem_cons]
      grind

/-- The months still ascend. -/
theorem ascending_addToMonth (ascending : ms.Pairwise Earlier) :
    (addToMonth k.1 k.2 amount ms).Pairwise Earlier := by
  induction ms with
  | nil => exact List.pairwise_singleton _ _
  | cons first ms ih =>
    obtain ⟨later, rest⟩ := List.pairwise_cons.mp ascending
    rcases addToMonth_cons k amount first ms with ⟨before, eq⟩ | ⟨here, eq⟩ | ⟨behind, eq⟩
    · rw [eq]
      refine List.pairwise_cons.mpr ⟨fun m hm ↦ ?_, ih rest⟩
      rcases (mem_addToMonth rest).mp hm with ⟨old, -⟩ | rfl
      · exact later m old
      · exact before.of_key_eq (key_toldOf ms k).symm
    · rw [eq]
      exact List.pairwise_cons.mpr ⟨later, rest⟩
    · rw [eq]
      refine List.pairwise_cons.mpr ⟨?_, ascending⟩
      rw [List.forall_mem_cons]
      exact ⟨behind, fun m hm ↦ behind.trans (later m hm)⟩

/-- The months tell of one order more. -/
theorem orders_addToMonth (k : Int × Nat) (amount : Float) (ms : List MonthlyRevenue) :
    ((addToMonth k.1 k.2 amount ms).map (·.orders)).sum = (ms.map (·.orders)).sum + 1 := by
  induction ms with
  | nil => rfl
  | cons first ms ih =>
    rcases addToMonth_cons k amount first ms with ⟨-, eq⟩ | ⟨-, eq⟩ | ⟨-, eq⟩
    · rw [eq, List.map_cons, List.sum_cons, ih, List.map_cons, List.sum_cons]
      omega
    · rw [eq, List.map_cons, List.sum_cons, List.map_cons, List.sum_cons]
      dsimp only [MonthlyRevenue.add]
      omega
    · rw [eq, List.map_cons, List.sum_cons]
      dsimp only [MonthlyRevenue.add, ofOrders, List.length_nil]
      omega

/-! ## All orders of a list -/

theorem revenueByMonth_append (orders : List Order) (o : Order) : revenueByMonth (orders ++ [o]) =
    addToMonth o.month.1 o.month.2 o.totalAmount (revenueByMonth orders) :=
  List.foldl_append ..

theorem revenueByMonth_ascending (orders : List Order) :
    (revenueByMonth orders).Pairwise Earlier := by
  induction orders using List.reverseRecOn with
  | nil => exact List.Pairwise.nil
  | append_singleton orders o ih =>
    rw [revenueByMonth_append]
    exact ascending_addToMonth ih

theorem revenueByMonth_total (orders : List Order) :
    ((revenueByMonth orders).map (·.orders)).sum = orders.length := by
  induction orders using List.reverseRecOn with
  | nil => rfl
  | append_singleton orders o ih =>
    rw [revenueByMonth_append, orders_addToMonth, ih, List.length_append, List.length_singleton]

theorem ordersIn_append (orders : List Order) (o : Order) (k : Int × Nat) :
    ordersIn (orders ++ [o]) k =
      if o.month = k then ordersIn orders k ++ [o] else ordersIn orders k := by
  split
  · next here => simp [ordersIn, here]
  · next other => simp [ordersIn, other]

/-- If all that there is to tell is told, then so it is for each month, with orders or without. -/
theorem toldOf_eq (complete : ∀ m, m ∈ ms ↔
      ordersIn orders m.key ≠ [] ∧ m = ofOrders m.key (ordersIn orders m.key)) :
    toldOf ms k = ofOrders k (ordersIn orders k) := by
  by_cases h : ∃ m ∈ ms, m.key = k
  · obtain ⟨mem, key⟩ := toldOf_mem h
    have told := ((complete _).mp mem).2
    rwa [key] at told
  · have nothing : ordersIn orders k = [] := by
      by_contra some
      exact h ⟨ofOrders k (ordersIn orders k), (complete _).mpr ⟨some, rfl⟩, rfl⟩
    rw [toldOf_of_forall_ne fun m hm same ↦ h ⟨m, hm, same⟩, nothing]

/-- Of every month exactly what there is to tell is told, and of a month without orders nothing. -/
theorem mem_revenueByMonth (orders : List Order) (m : MonthlyRevenue) :
    m ∈ revenueByMonth orders ↔
      ordersIn orders m.key ≠ [] ∧ m = ofOrders m.key (ordersIn orders m.key) := by
  -- from the end, since the last order of the list is the last one that is added
  induction orders using List.reverseRecOn generalizing m with
  | nil => simp [revenueByMonth, ordersIn]
  | append_singleton orders o ih =>
    rw [revenueByMonth_append, mem_addToMonth (revenueByMonth_ascending orders), toldOf_eq ih,
      ← ofOrders_append, ordersIn_append]
    by_cases here : o.month = m.key
    · rw [if_pos here, here]
      simp
    · rw [if_neg here, ← ih]
      have other : m ≠ ofOrders o.month (ordersIn orders o.month ++ [o]) := by
        rintro rfl
        exact here rfl
      simp [Ne.symm here, other]

/-- Months tell of a list of orders: each month with orders does, in ascending order. -/
structure Chart (orders : List Order) (ms : List MonthlyRevenue) : Prop where
  /-- The months ascend strictly, so that none comes twice. -/
  ascending : ms.Pairwise Earlier
  /-- There is a month exactly if there is an order in it. -/
  month_iff : ∀ k, (∃ m ∈ ms, m.key = k) ↔ ∃ o ∈ orders, o.month = k
  count : ∀ m ∈ ms, m.orders = (ordersIn orders m.key).length
  /-- and what these add up to, one after the other. -/
  revenue : ∀ m ∈ ms, m.revenue = Decimal.sum ((ordersIn orders m.key).map (·.totalAmount))
  once : ∀ o ∈ orders, ∃! m, m ∈ ms ∧ m.key = o.month
  total : (ms.map (·.orders)).sum = orders.length

theorem ordersIn_ne_nil_iff : ordersIn orders k ≠ [] ↔ ∃ o ∈ orders, o.month = k := by
  simp [ordersIn]

theorem chart_revenueByMonth (orders : List Order) : Chart orders (revenueByMonth orders) := by
  have month_iff (k : Int × Nat) :
      (∃ m ∈ revenueByMonth orders, m.key = k) ↔ ∃ o ∈ orders, o.month = k := by
    rw [← ordersIn_ne_nil_iff]
    constructor
    · rintro ⟨m, hm, rfl⟩
      exact ((mem_revenueByMonth orders m).mp hm).1
    · intro some
      exact ⟨ofOrders k (ordersIn orders k), (mem_revenueByMonth orders _).mpr ⟨some, rfl⟩, rfl⟩
  have told : ∀ m ∈ revenueByMonth orders, m = ofOrders m.key (ordersIn orders m.key) :=
    fun m hm ↦ ((mem_revenueByMonth orders m).mp hm).2
  refine ⟨revenueByMonth_ascending orders, month_iff, ?_, ?_, ?_, revenueByMonth_total orders⟩
  · intro m hm
    exact congrArg MonthlyRevenue.orders (told m hm)
  · intro m hm
    exact congrArg MonthlyRevenue.revenue (told m hm)
  · intro o ho
    obtain ⟨m, hm, month⟩ := (month_iff o.month).mpr ⟨o, ho, rfl⟩
    refine ⟨m, ⟨hm, month⟩, ?_⟩
    rintro n ⟨hn, same⟩
    rw [told m hm, told n hn, month, same]

/-! ## The last half year -/

/-- The orders of a store that count as revenue. -/
def fulfilled (s : Store) : List Order := s.orders.rows.filter (·.Fulfilled)

/-- The window that the revenue by month is told for opens half a year before now. In the first half
year that dates are kept for there is no such time; there it opens only now. -/
inductive Opens (now since : Instant) : Prop
  | halfYearAgo (before : since.MonthsBefore 6 now)
  | atFirst (first : 12 * now.date.year + now.date.month < 12 * Date.firstYear + 1 + 6)
    (same : since = now)

theorem opens_getD (now : Instant) : Opens now ((now.minusMonths? revenueMonths).getD now) := by
  cases found : now.minusMonths? revenueMonths with
  | some since => exact .halfYearAgo (Instant.minusMonths?_eq_some_iff.mp found)
  | none =>
    refine .atFirst ?_ rfl
    by_contra later
    obtain ⟨t, before⟩ := Instant.exists_monthsBefore_iff.mpr (Int.not_lt.mp later)
    cases found.symm.trans (Instant.minusMonths?_eq_some_iff.mpr before)

/-- At any time, the revenue by month is the chart of the fulfilled orders dated in the window that
opens half a year before, which are some of the fulfilled orders that the revenue is the sum of. -/
theorem orderFigures_monthly (s : Store) (now : Instant) : ∃ since, Opens now since ∧
    Chart ((fulfilled s).filter (since ≤ ·.orderDate)) (s.orderFigures now).monthly ∧
    ((s.orderFigures now).monthly.map (·.orders)).sum ≤ (fulfilled s).length ∧
    (s.orderFigures now).revenue = Decimal.sum ((fulfilled s).map (·.totalAmount)) := by
  refine ⟨(now.minusMonths? revenueMonths).getD now, opens_getD now, ?_⟩
  have rows : s.orders.rows.filter (·.status.isFulfilled) = fulfilled s := by
    simp only [fulfilled, ← Order.isFulfilled_iff, Bool.decide_eq_true]
  have monthly : (s.orderFigures now).monthly = revenueByMonth ((fulfilled s).filter
      ((now.minusMonths? revenueMonths).getD now ≤ ·.orderDate)) := by
    simp only [orderFigures, rows, ← Instant.le_eq_true, Bool.decide_eq_true]
  have chart := chart_revenueByMonth ((fulfilled s).filter
    ((now.minusMonths? revenueMonths).getD now ≤ ·.orderDate))
  rw [← monthly] at chart
  refine ⟨chart, ?_, ?_⟩
  · rw [chart.total]
    exact List.length_filter_le _ _
  · simp only [orderFigures, rows]

end Store

end Outreach
