import Outreach.Proofs.Audience.Counting
import Outreach.Proofs.Store.Search
import Outreach.Proofs.Store.Visits

/-!
# Room for visits

Visits are counted in 64 bits, and nothing keeps them there: neither the checks of requests nor the
order that adds a visit, nor the total over a segment. What is counted is right, but where there is no
room for it the program breaks down: at the order of a customer with all the visits that 64 bits can
tell, and at insights into a segment with more visits than that. There is room as long as the largest
number that was ever given and one for each order that was placed leave it.
-/

namespace Outreach

/-! ## Totals -/

namespace Audience

/-- The visits of a segment are those of all its customers at most. -/
theorem visitsOf_evaluate_le {customers : List Customer} {most : Nat}
    (each : ∀ c ∈ customers, c.visits.toNat ≤ most) (rules : List Rule) :
    visitsOf (evaluate customers rules) ≤ customers.length * most := by
  have some : ∀ n ∈ (customers.filter (admits (Rule.group rules))).map fun c ↦ c.visits.toNat,
      n ≤ most := by
    intro n hn
    obtain ⟨c, hc, rfl⟩ := List.mem_map.mp hn
    exact each c (List.mem_filter.mp hc).1
  have sum := List.sum_le_card_nsmul _ _ some
  rw [List.length_map, smul_eq_mul] at sum
  rw [visitsOf_evaluate]
  exact Nat.le_trans sum (Nat.mul_le_mul_right most (List.length_filter_le _ _))

end Audience

/-! ## Orders -/

namespace Store

variable {s : Store} {stamp : Stamp} {most bound : Nat} {c : Customer}

theorem toNat_visits_withoutOrder_le (c : Customer) (amount : Float) (now : Calendar.Instant) :
    (withoutOrder c amount now).visits.toNat ≤ c.visits.toNat := by
  rcases Nat.eq_zero_or_pos c.visits.toNat with none | some
  · have none' : c.visits = 0 := UInt64.toNat_inj.mp none
    rw [withoutOrder, if_pos none', none']
  · have visits := toNat_visits_withoutOrder amount now some
    omega

/-- What becomes of an order with a proper price for a customer who is there: it is placed and is one
visit more if there is room for that, and otherwise the program breaks down. -/
theorem visits_createOrder (stamp : Stamp) {r : Order.New} {items : List Order.Item}
    (priced : r.pricedItems = .ok items) (found : s.customers.find? r.customerId = some c) :
    (c.visits.toNat + 1 < 2 ^ 64 → ∃ o c', (s.createOrder stamp r).1 = .ok o ∧
      (s.createOrder stamp r).2.customers.find? r.customerId = some c' ∧
      c'.visits.toNat = c.visits.toNat + 1) ∧
    (c.visits.toNat + 1 = 2 ^ 64 → (s.createOrder stamp r).1 = .error .countFull) := by
  constructor
  · intro room
    obtain ⟨c', counted⟩ : ∃ c', withOrder? c r.totalAmount stamp.now = some c' := by
      refine Option.ne_none_iff_exists'.mp fun full ↦ ?_
      exact absurd (withOrder?_eq_none_iff.mp full) (Nat.ne_of_lt room)
    have done := createOrder_of_room priced found counted
    obtain ⟨_, d, d', -, found', counted', stored⟩ :=
      exists_of_placed (congrArg Prod.fst done)
    obtain rfl := Option.some.inj (found.symm.trans found')
    exact ⟨_, d', congrArg Prod.fst done, stored, toNat_visits_of_withOrder? counted'⟩
  · intro full
    rw [createOrder_of_full priced found (withOrder?_eq_none_iff.mpr full)]

/-- A command gives no customer more visits than a bound. -/
def GivesAtMost (bound : Nat) : Store.Command → Prop
  | .createCustomer r => r.visits.toNat ≤ bound
  | .updateCustomer _ r => ∀ n, r.visits = some n → n.toNat ≤ bound
  | _ => True

/-- How many orders a command places at most. -/
def placings : Store.Command → Nat
  | .createOrder _ => 1
  | _ => 0

/-- The most visits of a customer grow with the orders that are placed only, if no larger number is
given. -/
theorem visits_le_obey (before : ∀ c ∈ s.customers.rows, c.visits.toNat ≤ most) (room : bound ≤ most)
    (command : Store.Command) (given : GivesAtMost bound command) :
    ∀ c ∈ (s.obey stamp command).customers.rows, c.visits.toNat ≤ most + placings command := by
  intro c hc
  cases s.customerOrigin_obey stamp command c hc with
  | kept _ h => exact Nat.le_add_right_of_le (before c h)
  | made r valid => exact Nat.le_add_right_of_le (Nat.le_trans given room)
  | @changed id r valid c h =>
    refine getD_cases (P := fun n : UInt64 ↦ n.toNat ≤ most) (fun n hn ↦ ?_) (before c h)
    exact Nat.le_trans (given n hn) room
  | @ordered r items priced c c' h counted =>
    rw [toNat_visits_of_withOrder? counted]
    exact Nat.add_le_add_right (before c h) 1
  | @unordered id o there c h =>
    exact Nat.le_trans (toNat_visits_withoutOrder_le c o.totalAmount stamp.now) (before c h)

end Store

/-! ## Histories -/

/-- A customer for demonstration has fifty visits at most. -/
theorem Demo.visits_customer_le (name : String) (id : Id) (now : Calendar.Instant)
    (chance : Chance) : (customer name id now chance).visits.toNat ≤ 50 := by
  have throw : between 1 51 (chance 3) ≤ 50 := by
    simp only [between]
    omega
  exact Nat.le_trans (Nat.mod_le _ _) throw

namespace Crm

/-- A deed gives no customer more visits than a bound. -/
def Deed.GivesAtMost (bound : Nat) : Deed → Prop
  | .event _ (.command (.records c)) => Store.GivesAtMost bound c
  | .event _ _ => True
  | .insert c => c.visits.toNat ≤ bound
  | .fill .. => 50 ≤ bound

/-- How many orders a deed places at most. -/
def Deed.placings : Deed → Nat
  | .event _ (.command (.records c)) => Store.placings c
  | _ => 0

/-- How many orders a history places at most. -/
def placings (deeds : List Deed) : Nat := (deeds.map Deed.placings).sum

variable {settings : Settings.Campaigns} {w : Crm} {most bound : Nat}

theorem visits_le_act (before : ∀ c ∈ w.store.customers.rows, c.visits.toNat ≤ most)
    (room : bound ≤ most) {d : Deed} (given : d.GivesAtMost bound) :
    ∀ c ∈ (w.act settings d).store.customers.rows, c.visits.toNat ≤ most + d.placings := by
  cases d with
  | event stamp e =>
    rcases w.records_or_sameRecords settings stamp e with ⟨c, rfl, -⟩ | same
    · exact Store.visits_le_obey before room c given
    · simp only [act, same.customers]
      exact fun c hc ↦ Nat.le_add_right_of_le (before c hc)
  | insert c => exact Store.forall_customers_insert before (Nat.le_trans given room)
  | fill now admin ids chance =>
    rw [store_act_fill]
    refine Demo.forall_customers_seed now admin ids chance (fun name _ id now chance ↦ ?_) before
    exact Nat.le_trans (Demo.visits_customer_le name id now chance) (Nat.le_trans given room)

/-- No customer has more visits than the largest number that was given and one for each order. -/
theorem visits_le_history {deeds : List Deed} (given : ∀ d ∈ deeds, d.GivesAtMost bound)
    (room : bound ≤ most) (before : ∀ c ∈ w.store.customers.rows, c.visits.toNat ≤ most) :
    ∀ c ∈ (w.history settings deeds).store.customers.rows,
      c.visits.toNat ≤ most + placings deeds := by
  induction deeds generalizing w most with
  | nil => exact before
  | cons d deeds ih =>
    have step : ∀ c ∈ (w.act settings d).store.customers.rows, c.visits.toNat ≤ most + d.placings :=
      visits_le_act before room (given d List.mem_cons_self)
    have rest := ih (fun e he ↦ given e (List.mem_cons_of_mem _ he))
      (Nat.le_add_right_of_le room) step
    intro c hc
    have count : placings (d :: deeds) = d.placings + placings deeds := rfl
    rw [count, ← Nat.add_assoc]
    exact rest c hc

/-- In every state of every history, an order with a proper price for a customer who is there is placed
and is one visit more, or the program breaks down, exactly if the customer has all the visits that 64
bits can tell; and the insights into the segment of any rules show the sum of its visits, or there are
none, exactly if this sum does not fit into 64 bits. If no number of visits was given beyond a bound, no
customer has more of them than this bound and one for each order that was placed, so that there is room
as long as one more fits, and for totals as long as that many for each customer fit. -/
theorem visits_within_room (settings : Settings.Campaigns) (deeds : List Deed) (bound : Nat)
    (given : ∀ d ∈ deeds, d.GivesAtMost bound) :
    let s := (empty.history settings deeds).store
    let most := bound + placings deeds
    (∀ c ∈ s.customers.rows, c.visits.toNat ≤ most) ∧
    (∀ stamp r items c, r.pricedItems = .ok items → s.customers.find? r.customerId = some c →
      (c.visits.toNat + 1 < 2 ^ 64 → ∃ o c', (s.createOrder stamp r).1 = .ok o ∧
        (s.createOrder stamp r).2.customers.find? r.customerId = some c' ∧
        c'.visits.toNat = c.visits.toNat + 1) ∧
      (c.visits.toNat + 1 = 2 ^ 64 → (s.createOrder stamp r).1 = .error .countFull) ∧
      (most + 1 < 2 ^ 64 → c.visits.toNat + 1 < 2 ^ 64)) ∧
    ∀ sizes rules,
      let sum := Audience.visitsOf (Audience.evaluate s.customers.rows rules)
      (sum < 2 ^ 64 → ∃ i, Audience.insights? sizes s.customers.rows rules = some i ∧
        i.statistics.totalVisits.toNat = sum) ∧
      (2 ^ 64 ≤ sum → Audience.insights? sizes s.customers.rows rules = none) ∧
      (s.customers.rows.length * most < 2 ^ 64 → sum < 2 ^ 64) := by
  intro s most
  have each : ∀ c ∈ s.customers.rows, c.visits.toNat ≤ most :=
    visits_le_history given (Nat.le_refl bound) fun c hc ↦ nomatch hc
  refine ⟨each, fun stamp r items c priced found ↦ ?_, fun sizes rules ↦ ?_⟩
  · obtain ⟨room, full⟩ := Store.visits_createOrder stamp priced found
    have le := each c (Table.mem_of_find? found)
    exact ⟨room, full, fun small ↦ by omega⟩
  · obtain ⟨there, described⟩ := Audience.insights?_iff sizes s.customers.rows rules
    refine ⟨fun small ↦ ?_, fun large ↦ ?_, fun small ↦ ?_⟩
    · obtain ⟨i, h⟩ := there.mpr small
      exact ⟨i, h, (described i h).visits⟩
    · refine Option.eq_none_iff_forall_ne_some.mpr fun i h ↦ ?_
      exact absurd (there.mp ⟨i, h⟩) (Nat.not_lt.mpr large)
    · exact (Audience.visitsOf_evaluate_le each rules).trans_lt small

/-- A customer who begins with some visits. -/
def guest (name email : String) (visits : UInt64) : Customer.New :=
  { newcomer name email with visits }

/-- A customer has been there three times and has placed two orders, one of which was removed; so one
visit more is five. -/
theorem visits_within_room_ropesForAnn :
    let deeds := Deed.creation (tick 1) (guest "Ann" "ann@xeno.in" 3) :: ropesForAnn
    let s := (empty.history .usual deeds).store
    (∀ d ∈ deeds, d.GivesAtMost 3) ∧ placings deeds = 3 ∧
      (∃ o c', (s.createOrder (tick 6) (twoRopes ⟨1⟩)).1 = .ok o ∧
        (s.createOrder (tick 6) (twoRopes ⟨1⟩)).2.customers.find? ⟨1⟩ = some c' ∧
        c'.visits.toNat = 5) ∧
      ∃ i, Audience.insights? ⟨10, 5⟩ s.customers.rows [] = some i ∧
        i.statistics.totalVisits.toNat = 4 := by
  intro deeds s
  have given : ∀ d ∈ deeds, d.GivesAtMost 3 := by
    intro d hd
    simp only [deeds, ropesForAnn, List.mem_cons, List.not_mem_nil, or_false] at hd
    rcases hd with rfl | rfl | rfl | rfl | rfl
    · exact Nat.le_refl 3
    all_goals trivial
  obtain ⟨-, order, total⟩ := visits_within_room .usual deeds 3 given
  have four : (s.customers.find? ⟨1⟩).map (·.visits) = some 4 := by decide +kernel
  obtain ⟨c, found, visits⟩ := Option.map_eq_some_iff.mp four
  obtain ⟨room, -, -⟩ := order (tick 6) (twoRopes ⟨1⟩) [⟨"Rope", 2, 5, 10⟩] c (by decide +kernel) found
  obtain ⟨o, c', placed, found', more⟩ := room (by rw [visits]; decide)
  have sum : Audience.visitsOf (Audience.evaluate s.customers.rows []) = 4 := by
    rw [Audience.visitsOf_evaluate]
    decide +kernel
  obtain ⟨i, shown, counted⟩ := (total ⟨10, 5⟩ []).1 (by rw [sum]; decide)
  rw [visits] at more
  exact ⟨given, by decide, ⟨o, c', placed, found', more⟩, i, shown, counted.trans sum⟩

/-- A customer has been there as often as 64 bits can count, and another one once. -/
def fullHouse : List Deed :=
  [.creation (tick 1) (guest "Ann" "ann@xeno.in" 18446744073709551615),
    .creation (tick 2) (guest "Bob" "bob@xeno.in" 1)]

/-- At the next order of the former customer the program breaks down, though the order is a proper one
and the customer is there; and there are no insights into both, who have 2^64 visits together. -/
theorem visits_without_room :
    let s := (empty.history .usual fullHouse).store
    ((twoRopes ⟨1⟩).pricedItems = .ok [⟨"Rope", 2, 5, 10⟩] ∧
      (∃ c, s.customers.find? ⟨1⟩ = some c ∧ c.visits.toNat = 2 ^ 64 - 1) ∧
      (s.createOrder (tick 3) (twoRopes ⟨1⟩)).1 = .error .countFull) ∧
    Audience.insights? ⟨10, 5⟩ s.customers.rows [] = none ∧
    Audience.visitsOf (Audience.evaluate s.customers.rows []) = 2 ^ 64 := by
  intro s
  have together : Audience.visitsOf (Audience.evaluate s.customers.rows []) = 2 ^ 64 := by
    rw [Audience.visitsOf_evaluate]
    decide +kernel
  have full : (s.customers.find? ⟨1⟩).map (·.visits) = some 18446744073709551615 := by decide +kernel
  obtain ⟨c, found, visits⟩ := Option.map_eq_some_iff.mp full
  have most : c.visits.toNat = 2 ^ 64 - 1 := by
    rw [visits]
    decide
  have priced : (twoRopes ⟨1⟩).pricedItems = .ok [⟨"Rope", 2, 5, 10⟩] := by decide +kernel
  have none : Audience.insights? ⟨10, 5⟩ s.customers.rows [] = none := by
    refine Option.eq_none_iff_forall_ne_some.mpr fun i h ↦ ?_
    have small := (Audience.insights?_iff ⟨10, 5⟩ s.customers.rows []).1.mp ⟨i, h⟩
    rw [together] at small
    exact absurd small (Nat.lt_irrefl _)
  refine ⟨⟨priced, ⟨c, found, most⟩, ?_⟩, none, together⟩
  exact (Store.visits_createOrder _ priced found).2 (by rw [most]; decide)

end Crm

end Outreach
