import Mathlib.Algebra.Ring.Nat
import Outreach.Proofs.Store.Accounts

/-!
# Visits and orders

The visits of a customer are counted up and down while the orders come and go, and nothing else ties
the two together. Still the count does not drift: from the moment a customer is made, the visits are
those given at the beginning and one for each order of the customer that is in the store, as long as
nobody gives another number. So the count is never at zero when an order is taken out, and an order for
which it has no room is not placed.
-/

namespace Outreach

namespace Store

/-! ## The tally of one customer -/

/-- How many orders of a customer there are. -/
def ordersOf (s : Store) (id : Id) : Nat := s.orders.rows.countP (·.customerId == id)

/-- The visits of a customer, if there still is one, are a number and the orders that there are. -/
def Tallies (s : Store) (id : Id) (base : Nat) : Prop :=
  ∀ c, s.customers.find? id = some c → c.visits.toNat = base + s.ordersOf id

/-- A command gives a customer a number of visits, and is carried out. -/
def SetsVisits (s : Store) (stamp : Stamp) (id : Id) (command : Store.Command) : Prop :=
  ∃ r c, command = .updateCustomer id r ∧ r.visits.isSome = true ∧
    (s.updateCustomer stamp id r).1 = .ok c

variable {s s' : Store} {stamp : Stamp} {id : Id} {base : Nat} {c : Customer} {o : Order}

theorem ordersOf_eq_length (s : Store) (id : Id) : s.ordersOf id = (s.amountsOf id).length := by
  rw [ordersOf, List.countP_eq_length_filter, amountsOf, amountsAmong, List.length_map]

section Orders

variable {amount : Float} {now : Calendar.Instant}

/-- Above zero the floor does not matter. -/
theorem toNat_visits_withoutOrder (amount : Float) (now : Calendar.Instant)
    (pos : 0 < c.visits.toNat) :
    (withoutOrder c amount now).visits.toNat + 1 = c.visits.toNat := by
  have some : c.visits ≠ 0 := by
    intro none
    rw [none] at pos
    cases pos
  have one_le : (1 : UInt64) ≤ c.visits := UInt64.le_iff_toNat_le.mpr pos
  rw [withoutOrder, if_neg some, UInt64.toNat_sub_of_le _ _ one_le, UInt64.toNat_one]
  omega

/-- All that can become of a customer and the orders keeps the tally, if no number of visits is asked
for. -/
theorem Tallies.turn {asked : Customer.Change → Prop} (before : s.Tallies id base)
    (turn : Turn asked id s s') (unset : ∀ r, asked r → r.visits = none) : s'.Tallies id base := by
  intro d hd
  rw [ordersOf_eq_length]
  cases turn with
  | still customer orders =>
    rw [customer] at hd
    rw [orders.length_eq, ← ordersOf_eq_length]
    exact before d hd
  | gone customer =>
    rw [customer] at hd
    cases hd
  | changed r now h found customer orders =>
    rw [customer] at hd
    cases hd
    rw [orders.length_eq, ← ordersOf_eq_length, ← before _ found]
    simp only [Customer.Change.apply, unset r h, Option.getD_none]
  | @ordered c c' amount now found counted customer orders =>
    rw [customer] at hd
    cases hd
    have tally := before c found
    rw [ordersOf_eq_length] at tally
    rw [orders.length_eq, List.length_cons, toNat_visits_of_withOrder? counted]
    omega
  | @removed c amount now found customer orders =>
    rw [customer] at hd
    cases hd
    have tally := before c found
    rw [ordersOf_eq_length, orders.length_eq, List.length_cons] at tally
    have visits := toNat_visits_withoutOrder amount now (c := c) (by omega)
    omega

/-- An order that is there counts for its customer. -/
theorem Tallies.visits_pos (before : s.Tallies id base) (ho : o ∈ s.orders.rows)
    (buyer : o.customerId = id) (found : s.customers.find? id = some c) : 0 < c.visits.toNat := by
  have counted : 0 < s.ordersOf id := List.countP_pos_iff.mpr ⟨o, ho, beq_iff_eq.mpr buyer⟩
  rw [before c found]
  omega

/-- Removing an order of a customer lowers the visits by one, which are not at zero. -/
theorem Tallies.removal (before : s.Tallies id base) (ho : o ∈ s.orders.rows)
    (buyer : o.customerId = id) (found : s.customers.find? id = some c) (stamp : Stamp) :
    c.visits ≠ 0 ∧ ∃ c', (s.deleteOrder stamp o.id).2.customers.find? id = some c' ∧
      c'.visits.toNat + 1 = c.visits.toNat := by
  have pos := before.visits_pos ho buyer found
  refine ⟨fun none ↦ ?_, _, find?_deleteOrder ho buyer found stamp, ?_⟩
  · rw [none] at pos
    cases pos
  · exact toNat_visits_withoutOrder _ _ pos

end Orders

end Store

/-! ## Histories -/

namespace Crm

/-- A deed gives a customer a number of visits. -/
def Deed.SetsVisits (w : Crm) (id : Id) : Deed → Prop
  | .event stamp (.command (.records c)) => w.store.SetsVisits stamp id c
  | _ => False

variable {settings : Settings.Campaigns} {w : Crm} {id : Id} {d : Deed}

/-- What gives no number of visits asks for none. -/
theorem Deed.visits_eq_none {r : Customer.Change} (unset : ¬d.SetsVisits w id)
    (h : d.Changes w id r) : r.visits = none := by
  rw [← Option.not_isSome_iff_eq_none]
  intro given
  rcases d with ⟨stamp, (c | _ | _ | _ | _ | _) | t⟩ | _ | _
  case event.command.records =>
    obtain ⟨rfl, c', done⟩ := h
    exact unset ⟨r, c', rfl, given, done⟩
  all_goals exact h

/-- What holds of the visits of a customer whom a history has made with a record. -/
structure CountsVisits (s : Store) (c : Customer) (deeds : List Deed) : Prop where
  /-- The visits are those given at the beginning and one for each order of the customer. -/
  visits : ∀ c', s.customers.find? c.id = some c' →
    c'.visits.toNat = c.visits.toNat + s.ordersOf c.id
  /-- The orders of the customer are those that have been placed for the customer. -/
  orders : ∀ o ∈ s.orders.rows, o.customerId = c.id ↔ o.id ∈ deeds.flatMap (Deed.placedFor c.id)
  /-- If one of them is removed, the visits are one less, and they have not been at zero. -/
  removal : ∀ stamp o c', o ∈ s.orders.rows → o.customerId = c.id →
    s.customers.find? c.id = some c' → c'.visits ≠ 0 ∧
      ∃ c'', (s.deleteOrder stamp o.id).2.customers.find? c.id = some c'' ∧
        c''.visits.toNat + 1 = c'.visits.toNat

section Life

variable {before after : List Deed} {stamp : Stamp} {r : Customer.New} {c : Customer}

/-- From the creation of a customer on, the tally is kept. -/
theorem tallies_since
    (customers : ((before ++ .creation stamp r :: after).flatMap Deed.enrolled).Nodup)
    (orders : ((before ++ .creation stamp r :: after).flatMap Deed.placed).Nodup)
    (made : ((empty.history settings before).store.createCustomer stamp r).1 = .ok c)
    (unset : ∀ past d, past ++ [d] <+: after →
      ¬d.SetsVisits (since settings before stamp r past) c.id) :
    (since settings before stamp r after).store.Tallies c.id c.visits.toNat := by
  refine life_induction (P := fun s ↦ s.Tallies c.id c.visits.toNat) customers orders
    (.creation stamp r made) ?_ ?_
  · intro s found none d hd
    rw [found] at hd
    cases hd
    rw [Store.ordersOf_eq_length, none, List.length_nil, Nat.add_zero]
  · intro past d h w w' turn earlier
    exact earlier.turn turn fun r asked ↦ Deed.visits_eq_none (unset past d h) asked

end Life

/-- For every history from an empty store in which no identity is given twice, from the creation of
a customer on, as long as no change gives another number: the visits of the customer are those given
at the beginning and one for each order of the customer that is stored, which are those that have been
placed for the customer, and the count is not at zero when one of them is removed. An order that is
placed changes the record of no other customer. -/
theorem visits_counted (settings : Settings.Campaigns) (before after : List Deed) (stamp : Stamp)
    (r : Customer.New) (c : Customer)
    (customers : ((before ++ .creation stamp r :: after).flatMap Deed.enrolled).Nodup)
    (orders : ((before ++ .creation stamp r :: after).flatMap Deed.placed).Nodup)
    (made : ((empty.history settings before).store.createCustomer stamp r).1 = .ok c)
    (unset : ∀ past d, past ++ [d] <+: after →
      ¬d.SetsVisits (since settings before stamp r past) c.id) :
    CountsVisits (since settings before stamp r after).store c
        (before ++ .creation stamp r :: after) ∧
      ∀ (s : Store) stamp r id, id ≠ r.customerId →
        (s.createOrder stamp r).2.customers.find? id = s.customers.find? id := by
  have tally : (since settings before stamp r after).store.Tallies c.id c.visits.toNat :=
    tallies_since customers orders made unset
  have here := (Deed.Bears.creation stamp r made).mem_enrolled
  have own : .creation stamp r ∈ before ++ .creation stamp r :: after :=
    List.mem_append_right _ List.mem_cons_self
  refine ⟨⟨tally, fun o ho ↦ ?_, fun stamp o c' ho buyer found ↦ ?_⟩, ?_⟩
  · obtain ⟨⟨d, hd, places⟩, -⟩ := origin_history settings _ o ho
    constructor
    · intro buyer
      refine List.mem_flatMap.mpr ⟨d, hd, buyer ▸ places.mem_placedFor ?_⟩
      rintro now admin ids chance rfl shown
      rw [buyer] at shown
      cases eq_of_given customers hd own shown here
    · intro placed
      obtain ⟨d', hd', placed'⟩ := List.mem_flatMap.mp placed
      have same := eq_of_given orders hd hd' places.mem_placed (d'.placedFor_subset c.id placed')
      subst same
      exact places.customerId_eq placed'
  · exact tally.removal ho buyer found stamp
  · exact fun s stamp r id other ↦ s.find?_createOrder stamp r other

def twoRopes (id : Id) : Order.New :=
  ⟨id, [⟨"Rope", 2, 5⟩], 10, .pending, .paid, .upi, none, none⟩

/-- A customer places two orders, of which the first is then removed, while somebody unknown tries
to place one. -/
def ropesForAnn : List Deed :=
  [.event (tick 2) (.command (.records (.createOrder (twoRopes ⟨1⟩)))),
    .event (tick 3) (.command (.records (.createOrder (twoRopes ⟨1⟩)))),
    .event (tick 4) (.command (.records (.createOrder (twoRopes ⟨0⟩)))),
    .event (tick 5) (.command (.records (.deleteOrder ⟨2⟩)))]

/-- A customer who has been there three times is there a fourth time. -/
theorem visits_counted_ropesForAnn :
    let ann : Customer.New := { newcomer "Ann" "ann@xeno.in" with visits := 3 }
    let c := ann.customer ⟨1⟩ (tick 1).now
    let deeds := Deed.creation (tick 1) ann :: ropesForAnn
    (deeds.flatMap Deed.enrolled).Nodup ∧ (deeds.flatMap Deed.placed).Nodup ∧
      ((empty.history .usual []).store.createCustomer (tick 1) ann).1 = .ok c ∧
      (∀ past d, past ++ [d] <+: ropesForAnn →
        ¬d.SetsVisits (since .usual [] (tick 1) ann past) c.id) ∧
      ∃ c', (since .usual [] (tick 1) ann ropesForAnn).store.customers.find? c.id = some c' ∧
        c'.visits.toNat = 4 := by
  intro ann c deeds
  have customers : (deeds.flatMap Deed.enrolled).Nodup := by decide
  have orders : (deeds.flatMap Deed.placed).Nodup := by decide
  have made : ((empty.history .usual []).store.createCustomer (tick 1) ann).1 = .ok c :=
    made_of_isOk (by decide +kernel)
  have unset : ∀ past d, past ++ [d] <+: ropesForAnn →
      ¬d.SetsVisits (since .usual [] (tick 1) ann past) c.id := by
    rintro past d h sets
    have hd : d ∈ ropesForAnn := h.subset (List.mem_append_right _ List.mem_cons_self)
    simp only [ropesForAnn, List.mem_cons, List.not_mem_nil, or_false] at hd
    rcases hd with rfl | rfl | rfl | rfl <;> obtain ⟨r, c', command, -⟩ := sets <;> cases command
  obtain ⟨counts, -⟩ :=
    visits_counted .usual [] ropesForAnn (tick 1) ann c customers orders made unset
  have there : ((since .usual [] (tick 1) ann ropesForAnn).store.customers.contains c.id) = true := by
    decide +kernel
  obtain ⟨c', found⟩ := Option.isSome_iff_exists.mp there
  have one : (since .usual [] (tick 1) ann ropesForAnn).store.ordersOf c.id = 1 := by decide +kernel
  exact ⟨customers, orders, made, unset, c', found, by rw [counts.visits c' found, one]; rfl⟩

end Crm

end Outreach
