import Mathlib.Data.List.Induction
import Mathlib.Data.List.Infix
import Mathlib.Data.List.Pairwise
import Outreach.Proofs.Store.Addresses

/-!
# A customer and the orders

What a deed can do to the record of one customer and to the orders of this customer: nothing, remove
the record, change it on request, place an order that counts, or take one out that no longer does.
Whatever ties a record to its orders is kept along every history if it is kept in each of these cases,
since new customers have no orders and new orders take the place of none.
-/

namespace Outreach

namespace Store

/-! ## The orders of one customer -/

/-- What the orders of a customer in a list cost, one by one. -/
def amountsAmong (id : Id) (orders : List Order) : List Float :=
  (orders.filter (·.customerId == id)).map (·.totalAmount)

/-- What the orders of a customer cost, one by one. -/
def amountsOf (s : Store) (id : Id) : List Float := amountsAmong id s.orders.rows

/-- The identities that a command gives to orders. -/
def placed (stamp : Stamp) : Store.Command → List Id
  | .createOrder _ => [stamp.id]
  | _ => []

/-- The identities that a command gives to orders of a customer. -/
def placedFor (id : Id) (stamp : Stamp) : Store.Command → List Id
  | .createOrder r => if r.customerId = id then [stamp.id] else []
  | _ => []

/-- A command changes a customer as a request asks, and is carried out. -/
def Changes (s : Store) (stamp : Stamp) (command : Store.Command) (id : Id) (r : Customer.Change) :
    Prop :=
  command = .updateCustomer id r ∧ ∃ c, (s.updateCustomer stamp id r).1 = .ok c

variable {s s' : Store} {stamp : Stamp} {id key : Id} {c c' : Customer} {o o' : Order}

theorem amountsAmong_cons (orders : List Order) :
    amountsAmong id (o :: orders) =
      if o.customerId = id then o.totalAmount :: amountsAmong id orders
      else amountsAmong id orders := by
  unfold amountsAmong
  by_cases own : o.customerId = id
  · rw [if_pos own, List.filter_cons_of_pos (by rwa [beq_iff_eq]), List.map_cons]
  · rw [if_neg own, List.filter_cons_of_neg (by rwa [beq_iff_eq])]

theorem perm_amountsAmong {orders orders' : List Order} (h : orders.Perm orders') :
    (amountsAmong id orders).Perm (amountsAmong id orders') := (h.filter _).map _

theorem amountsOf_congr (orders : s'.orders = s.orders) : s'.amountsOf id = s.amountsOf id := by
  rw [amountsOf, orders, amountsOf]

/-- An order that is put stands beside the others of the customer. -/
theorem perm_amountsOf_put (id : Id) (orders : s'.orders = s.orders.put o) :
    (s'.amountsOf id).Perm (amountsAmong id (o :: (s.orders.erase o.id).rows)) := by
  rw [amountsOf, orders]
  exact perm_amountsAmong (Table.perm_put s.orders o)

/-- An order that is found stands beside the others of the customer. -/
theorem perm_amountsOf (found : s.orders.find? key = some o) :
    (s.amountsOf id).Perm (amountsAmong id (o :: (s.orders.erase key).rows)) :=
  perm_amountsAmong (Table.perm_of_find? found)

/-- Without an order of somebody else at most the amounts are the same. -/
theorem amountsAmong_erase (apart : ∀ o ∈ s.orders.rows, o.id = key → o.customerId ≠ id) :
    amountsAmong id (s.orders.erase key).rows = s.amountsOf id := by
  rw [amountsOf, amountsAmong, Table.erase, Table.rows_filter, List.filter_filter, amountsAmong]
  congr 1
  refine List.filter_congr fun o ho ↦ ?_
  rw [Bool.and_eq_left_iff_imp, beq_iff_eq, bne_iff_ne]
  exact fun own here ↦ apart o ho here own

/-- A new order is one more for its customer and none for others. -/
theorem amountsOf_put (id : Id) (new : s.orders.find? o.id = none)
    (orders : s'.orders = s.orders.put o) :
    (s'.amountsOf id).Perm (if o.customerId = id then o.totalAmount :: s.amountsOf id
      else s.amountsOf id) := by
  have rest : amountsAmong id (s.orders.erase o.id).rows = s.amountsOf id :=
    amountsAmong_erase fun o' ho' here ↦ absurd here (Table.find?_eq_none_iff.mp new o' ho')
  rw [← rest, ← amountsAmong_cons]
  exact perm_amountsOf_put id orders

/-- An order of somebody else that takes the place of such at most makes no difference. -/
theorem amountsOf_put_other (buyer : o.customerId ≠ id)
    (apart : ∀ o' ∈ s.orders.rows, o'.id = o.id → o'.customerId ≠ id)
    (orders : s'.orders = s.orders.put o) : (s'.amountsOf id).Perm (s.amountsOf id) := by
  have put := perm_amountsOf_put id orders
  rwa [amountsAmong_cons, if_neg buyer, amountsAmong_erase apart] at put

/-- An order that takes the place of one of the same customer and amount makes no difference. -/
theorem amountsOf_replace (found : s.orders.find? key = some o)
    (orders : s'.orders = s.orders.put o') (here : o'.id = o.id)
    (buyer : o'.customerId = o.customerId) (amount : o'.totalAmount = o.totalAmount) :
    (s'.amountsOf id).Perm (s.amountsOf id) := by
  refine (perm_amountsOf_put id orders).trans ?_
  refine List.Perm.trans (.of_eq ?_) (perm_amountsOf found).symm
  rw [amountsAmong_cons, amountsAmong_cons, buyer, amount, here, Table.key_of_find? found]

/-- An order that is taken out is one less for its customer and none for others. -/
theorem amountsOf_erase (id : Id) (found : s.orders.find? key = some o)
    (orders : s'.orders = s.orders.erase key) :
    (s.amountsOf id).Perm (if o.customerId = id then o.totalAmount :: s'.amountsOf id
      else s'.amountsOf id) := by
  have rest : s'.amountsOf id = amountsAmong id (s.orders.erase key).rows := by
    rw [amountsOf, orders]
  rw [rest, ← amountsAmong_cons]
  exact perm_amountsOf found

/-! ## What a command can do -/

/-- What may become of the record and the orders of one customer, if only some changes are asked
for. -/
inductive Turn (asked : Customer.Change → Prop) (id : Id) (s s' : Store) : Prop
  /-- The record stays as it is, and so do the orders. -/
  | still (customer : s'.customers.find? id = s.customers.find? id)
      (orders : (s'.amountsOf id).Perm (s.amountsOf id))
  | gone (customer : s'.customers.find? id = none)
  | changed {c : Customer} (r : Customer.Change) (now : Calendar.Instant) (h : asked r)
      (found : s.customers.find? id = some c)
      (customer : s'.customers.find? id = some (r.apply c now))
      (orders : (s'.amountsOf id).Perm (s.amountsOf id))
  | ordered {c c' : Customer} (amount : Float) (now : Calendar.Instant)
      (found : s.customers.find? id = some c) (counted : withOrder? c amount now = some c')
      (customer : s'.customers.find? id = some c')
      (orders : (s'.amountsOf id).Perm (amount :: s.amountsOf id))
  | removed {c : Customer} (amount : Float) (now : Calendar.Instant)
      (found : s.customers.find? id = some c)
      (customer : s'.customers.find? id = some (withoutOrder c amount now))
      (orders : (s.amountsOf id).Perm (amount :: s'.amountsOf id))

/-- The record that takes the place of one that is found is found instead of it. -/
theorem find?_customers_put (id : Id) (found : s.customers.find? key = some c)
    (customers : s'.customers = s.customers.put c') (here : c'.id = c.id) :
    s'.customers.find? id = if key = id then some c' else s.customers.find? id := by
  rw [customers, Table.find?_put, here, Table.key_of_find? found]

namespace Turn

variable {asked : Customer.Change → Prop}

theorem refl : Turn asked id s s := .still rfl (.refl _)

/-- A customer is added who is another one. -/
theorem enrol (other : c.id ≠ id) : Turn asked id s (s.enrol c) := by
  refine .still ?_ (.refl _)
  rw [Store.enrol, Table.find?_put, if_neg other]

/-- A customer is removed. -/
theorem dismiss (c : Customer) : Turn asked id s (s.dismiss c) := by
  have customer := Table.find?_erase s.customers c.id id
  split at customer
  · exact .gone customer
  · exact .still customer (.refl _)

/-- A customer is changed. -/
theorem update {r : Customer.Change} {now : Calendar.Instant}
    (found : s.customers.find? key = some c) (own : key = id → asked r)
    (customers : s'.customers = s.customers.put (r.apply c now)) (orders : s'.orders = s.orders) :
    Turn asked id s s' := by
  have same : (s'.amountsOf id).Perm (s.amountsOf id) := .of_eq (amountsOf_congr orders)
  have customer := find?_customers_put id found customers rfl
  by_cases here : key = id
  · subst here
    rw [if_pos rfl] at customer
    exact .changed r now (own rfl) found customer same
  · rw [if_neg here] at customer
    exact .still customer same

section Orders

variable {amount : Float} {now : Calendar.Instant}

theorem place (found : s.customers.find? o.customerId = some c)
    (counted : withOrder? c o.totalAmount now = some c') (new : s.orders.find? o.id = none) :
    Turn asked id s (s.book c' o) := by
  have customers : (s.book c' o).customers = s.customers.put c' := rfl
  have orders : (s.book c' o).orders = s.orders.put o := rfl
  have amounts := amountsOf_put id new orders
  have customer := find?_customers_put id found customers (id_of_withOrder? counted)
  by_cases here : o.customerId = id
  · rw [if_pos here] at amounts customer
    exact .ordered o.totalAmount now (here ▸ found) counted customer amounts
  · rw [if_neg here] at amounts customer
    exact .still customer amounts

theorem remove (found : s.orders.find? key = some o)
    (buyer : s.customers.find? o.customerId = some c)
    (customers : s'.customers = s.customers.put (withoutOrder c o.totalAmount now))
    (orders : s'.orders = s.orders.erase key) : Turn asked id s s' := by
  have amounts := amountsOf_erase id found orders
  have customer := find?_customers_put id buyer customers rfl
  by_cases here : o.customerId = id
  · rw [if_pos here] at amounts customer
    exact .removed o.totalAmount now (here ▸ buyer) customer amounts
  · rw [if_neg here] at amounts customer
    exact .still customer amounts.symm

/-- An order of a customer who is gone is taken out. -/
theorem clear (found : s.orders.find? key = some o)
    (gone : s.customers.find? o.customerId = none) (customers : s'.customers = s.customers)
    (orders : s'.orders = s.orders.erase key) : Turn asked id s s' := by
  have amounts := amountsOf_erase id found orders
  by_cases here : o.customerId = id
  · exact .gone (by rw [customers, ← here, gone])
  · rw [if_neg here] at amounts
    exact .still (by rw [customers]) amounts.symm

end Orders

end Turn

/-- All that a command can do to a customer whom it does not make, if orders get new identities. -/
theorem turn_obey (command : Store.Command) (others : id ∉ enrolled stamp command)
    (new : ∀ oid ∈ placed stamp command, s.orders.find? oid = none) :
    Turn (s.Changes stamp command id) id s (s.obey stamp command) := by
  cases command with
  | createCustomer r =>
    simp only [Store.obey]
    rcases s.createCustomer_cases stamp r with ⟨f, h⟩ | ⟨-, h⟩ <;> rw [h]
    · exact .refl
    · exact .enrol fun same ↦ others (same ▸ List.mem_cons_self)
  | updateCustomer key r =>
    have asked (c) (done : (s.updateCustomer stamp key r).1 = .ok c) (own : key = id) :
        s.Changes stamp (.updateCustomer key r) id r := own ▸ ⟨rfl, c, done⟩
    simp only [Store.obey]
    rcases s.updateCustomer_cases stamp key r with
      ⟨f, h⟩ | ⟨c, found, ⟨-, h⟩ | ⟨email, -, -, h⟩⟩ <;> rw [h] at asked ⊢
    · exact .refl
    · exact .update found (asked _ rfl) rfl rfl
    · exact .update found (asked _ rfl) rfl rfl
  | deleteCustomer key =>
    simp only [Store.obey]
    rcases s.deleteCustomer_cases key with ⟨f, h⟩ | ⟨c, -, h⟩ <;> rw [h]
    · exact .refl
    · exact .dismiss c
  | createOrder r =>
    simp only [Store.obey]
    rcases s.createOrder_cases stamp r with
      ⟨f, h⟩ | ⟨items, c, c', -, found, counted, h⟩ <;> rw [h]
    · exact .refl
    · exact .place found counted (new stamp.id List.mem_cons_self)
  | moveOrder key status =>
    simp only [Store.obey]
    rcases s.updateOrderStatus_cases stamp key status with ⟨f, h⟩ | ⟨o, found, h⟩ <;> rw [h]
    · exact .refl
    · exact .still rfl (amountsOf_replace found rfl rfl rfl rfl)
  | deleteOrder key =>
    simp only [Store.obey]
    rcases s.deleteOrder_cases stamp key with
      ⟨f, h⟩ | ⟨o, found, ⟨gone, h⟩ | ⟨c, buyer, h⟩⟩ <;> rw [h]
    · exact .refl
    · exact .clear found gone rfl rfl
    · exact .remove found buyer rfl rfl

/-- Placing an order changes the record of no other customer. -/
theorem find?_createOrder (s : Store) (stamp : Stamp) (r : Order.New)
    (other : id ≠ r.customerId) :
    (s.createOrder stamp r).2.customers.find? id = s.customers.find? id := by
  rcases s.createOrder_cases stamp r with ⟨f, h⟩ | ⟨items, c, c', -, found, counted, h⟩ <;> rw [h]
  have elsewhere : c'.id ≠ id := by
    rw [id_of_withOrder? counted, Table.key_of_find? found]
    exact other.symm
  exact (Table.find?_put ..).trans (if_neg elsewhere)

/-- An order that is placed has a proper price and counts for its customer. -/
theorem exists_of_placed {r : Order.New} (done : (s.createOrder stamp r).1 = .ok o) :
    ∃ items c c', r.pricedItems = .ok items ∧ s.customers.find? r.customerId = some c ∧
      withOrder? c r.totalAmount stamp.now = some c' ∧
      (s.createOrder stamp r).2.customers.find? r.customerId = some c' := by
  rcases s.createOrder_cases stamp r with ⟨f, h⟩ | ⟨items, c, c', priced, found, counted, h⟩
  · rw [h] at done
    cases done
  · refine ⟨items, c, c', priced, found, counted, ?_⟩
    have here : c'.id = r.customerId :=
      (id_of_withOrder? counted).trans (Table.key_of_find? found)
    rw [h]
    exact (Table.find?_put ..).trans (if_pos here)

/-- Removing an order takes it out of the figures of its customer. -/
theorem find?_deleteOrder (ho : o ∈ s.orders.rows) (buyer : o.customerId = id)
    (found : s.customers.find? id = some c) (stamp : Stamp) :
    (s.deleteOrder stamp o.id).2.customers.find? id =
      some (withoutOrder c o.totalAmount stamp.now) := by
  subst buyer
  have here : c.id = o.customerId := Table.key_of_find? found
  simp only [deleteOrder, Table.find?_of_mem ho, found]
  exact (Table.find?_put ..).trans (if_pos here)

/-- A customer that is added as it is leaves the others. -/
theorem find?_insertCustomer (other : c.id ≠ id) :
    (s.insertCustomer c).2.customers.find? id = s.customers.find? id := by
  rcases s.insertCustomer_cases c with ⟨-, h⟩ | ⟨-, h⟩ <;> rw [h]
  rw [Store.enrol, Table.find?_put, if_neg other]

end Store

/-! ## Records for demonstration -/

namespace Demo

variable (now : Calendar.Instant) (admin : User) (ids : Nat → Id) (chance : Chance)
  {id : Id} {s : Store}

/-- Customers that are added leave the others. -/
theorem find?_addCustomers {n : Nat} {names : List String}
    (others : id ∉ (List.range' n names.length).map ids) :
    (addCustomers now ids chance n names s).2.customers.find? id = s.customers.find? id := by
  induction names generalizing n s with
  | nil => rfl
  | cons name names ih =>
    rw [List.length_cons, List.range'_succ, List.map_cons, List.mem_cons, not_or] at others
    let c := customer name (ids n) now fun k ↦ chance (64 * n + k)
    have other : c.id ≠ id := Ne.symm others.1
    exact (ih others.2).trans (Store.find?_insertCustomer other)

/-- The customers that are added get the identities that are given out. -/
theorem mem_addCustomers {n : Nat} {names : List String}
    (h : id ∈ (addCustomers now ids chance n names s).1) :
    id ∈ (List.range' n names.length).map ids := by
  induction names generalizing n s with
  | nil => cases h
  | cons name names ih =>
    rw [List.length_cons, List.range'_succ, List.map_cons]
    simp only [addCustomers] at h
    split at h
    · rcases List.mem_cons.mp h with rfl | h
      · exact List.mem_cons_self
      · exact List.mem_cons_of_mem _ (ih h)
    · exact List.mem_cons_of_mem _ (ih h)

/-- An order that is there after orders have been added was there before, or it has an identity that
was given out and a customer who was named. -/
theorem origin_addOrders {customers : List Id} {n : Nat} {o : Order}
    (h : o ∈ (addOrders now ids chance customers n s).orders.rows) :
    o ∈ s.orders.rows ∨ (∃ k < n, o.id = ids (k + 100)) ∧ o.customerId ∈ customers := by
  induction n generalizing s with
  | zero => exact .inl h
  | succ n ih =>
    simp only [addOrders] at h
    split at h
    · exact .inl h
    · next customerId named =>
      rcases ih h with h | ⟨⟨k, hk, here⟩, buyer⟩
      · rcases Table.mem_put.mp h with rfl | ⟨h, -⟩
        · exact .inr ⟨⟨n, n.lt_succ_self, rfl⟩, List.mem_of_getElem? named⟩
        · exact .inl h
      · exact .inr ⟨⟨k, Nat.lt_succ_of_lt hk, here⟩, buyer⟩

/-- Orders of others that take the place of such at most leave the orders of a customer. -/
theorem amountsOf_addOrders {customers : List Id} {n : Nat} (others : id ∉ customers)
    (apart : ∀ k < n, ∀ o ∈ s.orders.rows, o.id = ids (k + 100) → o.customerId ≠ id) :
    ((addOrders now ids chance customers n s).amountsOf id).Perm (s.amountsOf id) := by
  induction n generalizing s with
  | zero => exact .refl _
  | succ n ih =>
    simp only [addOrders]
    split
    · exact .refl _
    · next customerId named =>
      have other : customerId ≠ id := fun same ↦ others (same ▸ List.mem_of_getElem? named)
      have last := apart n n.lt_succ_self
      refine (ih ?_).trans (Store.amountsOf_put_other other last rfl)
      intro k hk
      exact Table.forall_put (apart k (Nat.lt_succ_of_lt hk)) fun _ ↦ other

/-- Filling the store leaves the other customers and their orders. -/
theorem turn_seed {asked : Customer.Change → Prop}
    (others : id ∉ (List.range' 0 names.length).map ids)
    (apart : ∀ k < orderTotal, ∀ o ∈ s.orders.rows, o.id = ids (k + 100) → o.customerId ≠ id) :
    Store.Turn asked id s (seed s now admin ids chance).2 := by
  rw [snd_seed]
  apply Store.Turn.still
  · rw [(sameRecords_addCampaigns ..).customers, (addOrders_frame ..).1,
      find?_addCustomers now ids chance others]
  · obtain ⟨customers, -⟩ := addCustomers_frame now ids chance 0 names s
    rw [Store.amountsOf_congr (sameRecords_addCampaigns ..).orders, ← Store.amountsOf_congr customers]
    apply amountsOf_addOrders
    · exact fun h ↦ others (mem_addCustomers now ids chance h)
    · rwa [customers]

/-- An order that is there after the store has been filled was there before, or it has an identity
and a customer of those that were given out. -/
theorem origin_seed {o : Order} (h : o ∈ (seed s now admin ids chance).2.orders.rows) :
    o ∈ s.orders.rows ∨ (∃ k < orderTotal, o.id = ids (k + 100)) ∧
      o.customerId ∈ (List.range' 0 names.length).map ids := by
  rw [snd_seed, (sameRecords_addCampaigns ..).orders] at h
  rcases origin_addOrders now ids chance h with h | ⟨here, buyer⟩
  · rw [(addCustomers_frame ..).1] at h
    exact .inl h
  · exact .inr ⟨here, mem_addCustomers now ids chance buyer⟩

end Demo

/-! ## Deeds -/

namespace Crm

/-- The identities that a deed gives to orders. -/
def Deed.placed : Deed → List Id
  | .event stamp (.command (.records c)) => Store.placed stamp c
  | .event _ _ => []
  | .insert _ => []
  | .fill _ _ ids _ => (List.range Demo.orderTotal).map fun n ↦ ids (n + 100)

/-- The identities that a deed gives to orders that are placed for a customer. -/
def Deed.placedFor (id : Id) : Deed → List Id
  | .event stamp (.command (.records c)) => Store.placedFor id stamp c
  | _ => []

/-- A deed changes a customer as a request asks. -/
def Deed.Changes (w : Crm) (id : Id) (r : Customer.Change) : Deed → Prop
  | .event stamp (.command (.records c)) => w.store.Changes stamp c id r
  | _ => False

variable {settings : Settings.Campaigns} {w : Crm} {id : Id} {d : Deed} {o : Order}

/-- All that a deed can do to a customer whom it does not make, if orders get new identities. -/
theorem turn_act (others : id ∉ d.enrolled)
    (new : ∀ oid ∈ d.placed, w.store.orders.find? oid = none) :
    Store.Turn (fun r ↦ d.Changes w id r) id w.store (w.act settings d).store := by
  cases d with
  | event stamp e =>
    rcases w.records_or_sameRecords settings stamp e with ⟨c, rfl, -⟩ | same
    · exact Store.turn_obey c others new
    · refine .still ?_ (.of_eq (Store.amountsOf_congr same.orders))
      simp only [act, same.customers]
  | insert c =>
    have other : c.id ≠ id := fun same ↦ others (same ▸ List.mem_cons_self)
    exact .still (Store.find?_insertCustomer other)
      (.of_eq (Store.amountsOf_congr (w.store.insertCustomer_frame c).1))
  | fill now admin ids chance =>
    rw [store_act_fill]
    refine Demo.turn_seed now admin ids chance others fun k hk o ho here ↦ ?_
    have given : o.id ∈ Deed.placed (.fill now admin ids chance) :=
      List.mem_map.mpr ⟨k, List.mem_range.mpr hk, here.symm⟩
    exact absurd rfl (Table.find?_eq_none_iff.mp (new o.id given) o ho)

/-- The deed gives an order its identity and its customer. -/
inductive Deed.Places : Deed → Order → Prop where
  | order (stamp : Stamp) (r : Order.New) {o : Order} (here : o.id = stamp.id)
      (buyer : o.customerId = r.customerId) :
      Places (.event stamp (.command (.records (.createOrder r)))) o
  | shown (now : Calendar.Instant) (admin : User) (ids : Nat → Id) (chance : Demo.Chance)
      {o : Order} (here : o.id ∈ (Deed.fill now admin ids chance).placed)
      (buyer : o.customerId ∈ (Deed.fill now admin ids chance).enrolled) :
      Places (.fill now admin ids chance) o

theorem Deed.Places.mem_placed (h : d.Places o) : o.id ∈ d.placed := by
  cases h with
  | order stamp r here => exact here ▸ List.mem_cons_self
  | shown now admin ids chance here => exact here

/-- A deed that gives an order its identity and its customer, who is not one for demonstration,
places it for that customer. -/
theorem Deed.Places.mem_placedFor (h : d.Places o)
    (other : ∀ now admin ids chance, d = .fill now admin ids chance → o.customerId ∉ d.enrolled) :
    o.id ∈ d.placedFor o.customerId := by
  cases h with
  | order stamp r here buyer =>
    rw [Deed.placedFor, Store.placedFor, if_pos buyer.symm, here]
    exact List.mem_cons_self
  | shown now admin ids chance _ buyer => exact absurd buyer (other now admin ids chance rfl)

/-- A deed that places an order for a customer gives it this customer. -/
theorem Deed.Places.customerId_eq (h : d.Places o) (placed : o.id ∈ d.placedFor id) :
    o.customerId = id := by
  cases h with
  | order stamp r _ buyer =>
    rw [Deed.placedFor, Store.placedFor] at placed
    split at placed
    · next here => exact buyer.trans here
    · cases placed
  | shown => cases placed

theorem Deed.Places.congr {o' : Order} (h : d.Places o') (here : o'.id = o.id)
    (buyer : o'.customerId = o.customerId) : d.Places o := by
  cases h with
  | order stamp r here' buyer' =>
    exact .order stamp r (here.symm.trans here') (buyer.symm.trans buyer')
  | shown now admin ids chance here' buyer' =>
    exact .shown now admin ids chance (here ▸ here') (buyer ▸ buyer')

theorem Deed.placedFor_subset (id : Id) (d : Deed) : d.placedFor id ⊆ d.placed := by
  rcases d with ⟨stamp, (c | _ | _ | _ | _ | _) | t⟩ | _ | _
  case event.command.records =>
    cases c with
    | createOrder r =>
      simp only [Deed.placedFor, Deed.placed, Store.placedFor, Store.placed]
      split <;> simp
    | _ => exact List.nil_subset _
  all_goals exact List.nil_subset _

/-- An order that is there after a deed was there before, of the same customer, or the deed places
it for a customer who was there before or whom the deed itself makes. -/
theorem origin_act (h : o ∈ (w.act settings d).store.orders.rows) :
    (∃ o' ∈ w.store.orders.rows, o'.id = o.id ∧ o'.customerId = o.customerId) ∨
      d.Places o ∧
        (w.store.customers.contains o.customerId = true ∨ o.customerId ∈ d.enrolled) := by
  cases d with
  | event stamp e =>
    rcases w.records_or_sameRecords settings stamp e with ⟨c, rfl, -⟩ | same
    · cases w.store.origin_obey stamp c o h with
      | kept _ h => exact .inl ⟨o, h, rfl, rfl⟩
      | made r _ buyer =>
        refine .inr ⟨.order stamp r rfl rfl, .inl ?_⟩
        exact Option.isSome_iff_exists.mpr ⟨_, buyer⟩
      | @moved _ _ o' there => exact .inl ⟨o', there, rfl, rfl⟩
    · simp only [act, same.orders] at h
      exact .inl ⟨o, h, rfl, rfl⟩
  | insert c =>
    simp only [act, (w.store.insertCustomer_frame c).1] at h
    exact .inl ⟨o, h, rfl, rfl⟩
  | fill now admin ids chance =>
    rw [store_act_fill] at h
    rcases Demo.origin_seed now admin ids chance h with h | ⟨⟨k, hk, here⟩, buyer⟩
    · exact .inl ⟨o, h, rfl, rfl⟩
    · refine .inr ⟨.shown now admin ids chance ?_ buyer, .inr buyer⟩
      exact List.mem_map.mpr ⟨k, List.mem_range.mpr hk, here.symm⟩

/-! ## Histories -/

theorem history_append (w : Crm) (ds es : List Deed) :
    w.history settings (ds ++ es) = (w.history settings ds).history settings es :=
  List.foldl_append

/-- Every order that is there after a history has its identity and its customer from one of the
deeds, and the customer was made by one of them. -/
theorem origin_history (settings : Settings.Campaigns) (deeds : List Deed) :
    ∀ o ∈ (empty.history settings deeds).store.orders.rows,
      (∃ d ∈ deeds, d.Places o) ∧ o.customerId ∈ deeds.flatMap Deed.enrolled := by
  induction deeds using List.reverseRecOn with
  | nil =>
    intro o ho
    cases ho
  | append_singleton deeds d ih =>
    intro o ho
    rw [history_append] at ho
    have registers : Store.Registers (deeds.flatMap Deed.enrolled) Store.empty
        (empty.history settings deeds).store := registers_history .empty deeds
    rw [List.flatMap_append, List.flatMap_singleton, List.mem_append]
    rcases origin_act ho with ⟨o', ho', here, buyer⟩ | ⟨places, known⟩
    · obtain ⟨⟨d', hd', places⟩, made⟩ := ih o' ho'
      rw [← buyer]
      exact ⟨⟨d', List.mem_append_left _ hd', places.congr here buyer⟩, .inl made⟩
    · have own : d ∈ deeds ++ [d] := List.mem_append_right _ List.mem_cons_self
      refine ⟨⟨d, own, places⟩, known.imp (fun known ↦ ?_) id⟩
      by_contra unmade
      have unknown := registers.unknown o.customerId rfl unmade
      rw [Table.contains, unknown] at known
      cases known

/-- What no two deeds give is given by one of them alone. -/
theorem eq_of_given {f : Deed → List Id} {deeds : List Deed} (apart : (deeds.flatMap f).Nodup)
    {d' : Deed} (hd : d ∈ deeds) (hd' : d' ∈ deeds) (given : id ∈ f d) (given' : id ∈ f d') :
    d = d' := by
  by_contra different
  have symmetric : Std.Symm (Function.onFun List.Disjoint f) := ⟨fun _ _ h _ hx hy ↦ h hy hx⟩
  have disjoint := (List.nodup_flatMap.mp apart).2
  exact disjoint.forall hd hd' different given given'

/-- The deed by which a customer is made. -/
def Deed.creation (stamp : Stamp) (r : Customer.New) : Deed :=
  .event stamp (.command (.records (.createCustomer r)))

/-- The state some time after a customer was made. -/
def since (settings : Settings.Campaigns) (before : List Deed) (stamp : Stamp) (r : Customer.New)
    (after : List Deed) : Crm :=
  empty.history settings (before ++ .creation stamp r :: after)

/-- A request that is carried out makes the customer that it describes. -/
theorem made_of_isOk {s : Store} {stamp : Stamp} {r : Customer.New}
    (done : (s.createCustomer stamp r).1.isOk = true) :
    (s.createCustomer stamp r).1 = .ok (r.customer stamp.id stamp.now) := by
  rcases s.createCustomer_cases stamp r with ⟨f, h⟩ | ⟨-, h⟩
  · rw [h] at done
    cases done
  · exact congrArg Prod.fst h

/-- The customer has the identity of the request, and is added to the others. -/
theorem enrol_of_made {s : Store} {stamp : Stamp} {r : Customer.New} {c : Customer}
    (made : (s.createCustomer stamp r).1 = .ok c) :
    c.id = stamp.id ∧ (s.createCustomer stamp r).2 = s.enrol c := by
  rcases s.createCustomer_cases stamp r with ⟨f, h⟩ | ⟨-, h⟩
  · rw [h] at made
    cases made
  · rw [h] at made ⊢
    cases made
    exact ⟨rfl, rfl⟩

/-- A deed makes a customer with a record: on request, or as the customer is. -/
inductive Deed.Bears (w : Crm) (c : Customer) : Deed → Prop
  | creation (stamp : Stamp) (r : Customer.New)
      (made : (w.store.createCustomer stamp r).1 = .ok c) : Bears w c (.creation stamp r)
  | insert (added : (w.store.insertCustomer c).1 = true) : Bears w c (.insert c)

namespace Deed.Bears

variable {c : Customer}

/-- A customer who is made is added to the others. -/
theorem store_act (born : d.Bears w c) : (w.act settings d).store = w.store.enrol c := by
  cases born with
  | creation stamp r made => exact (enrol_of_made made).2
  | insert added =>
    rcases w.store.insertCustomer_cases c with ⟨-, h⟩ | ⟨-, h⟩
    · rw [h] at added
      cases added
    · exact congrArg Prod.snd h

/-- A customer who is made gets the identity of the deed. -/
theorem mem_enrolled (born : d.Bears w c) : c.id ∈ d.enrolled := by
  cases born with
  | creation stamp r made => exact (enrol_of_made made).1 ▸ List.mem_cons_self
  | insert => exact List.mem_cons_self

end Deed.Bears

section Life

variable {before after : List Deed} {birth : Deed} {c : Customer}

theorem history_append_singleton (past : List Deed) (d : Deed) :
    empty.history settings (before ++ birth :: (past ++ [d])) =
      (empty.history settings (before ++ birth :: past)).act settings d := by
  rw [← List.cons_append, ← List.append_assoc, history_append]
  rfl

/-- A new customer has no orders. -/
theorem amountsOf_eq_nil (customers : ((before ++ [birth]).flatMap Deed.enrolled).Nodup)
    (born : birth.Bears (empty.history settings before) c) :
    (empty.history settings before).store.amountsOf c.id = [] := by
  rw [List.flatMap_append, List.flatMap_singleton] at customers
  obtain ⟨-, -, strangers⟩ := List.nodup_append.mp customers
  refine List.map_eq_nil_iff.mpr (List.filter_eq_nil_iff.mpr fun o ho ↦ ?_)
  rw [beq_iff_eq]
  exact strangers _ (origin_history settings before o ho).2 _ born.mem_enrolled

/-- What holds when a customer is made and is kept by all that a deed can do to the customer holds
from then on. -/
theorem life_induction {P : Store → Prop}
    (customers : ((before ++ birth :: after).flatMap Deed.enrolled).Nodup)
    (orders : ((before ++ birth :: after).flatMap Deed.placed).Nodup)
    (born : birth.Bears (empty.history settings before) c)
    (start : ∀ s : Store, s.customers.find? c.id = some c → s.amountsOf c.id = [] → P s)
    (step : ∀ past d, past ++ [d] <+: after →
      let w := empty.history settings (before ++ birth :: past)
      let w' := empty.history settings (before ++ birth :: (past ++ [d]))
      Store.Turn (fun r ↦ d.Changes w c.id r) c.id w.store w'.store → P w.store → P w'.store) :
    P (empty.history settings (before ++ birth :: after)).store := by
  induction after using List.reverseRecOn with
  | nil =>
    have first : (empty.history settings (before ++ [birth])).store =
        (empty.history settings before).store.enrol c := by
      rw [history_append]
      exact born.store_act
    rw [first]
    refine start _ ?_ (amountsOf_eq_nil customers born)
    rw [Store.enrol, Table.find?_put, if_pos rfl]
  | append_singleton after d ih =>
    rw [← List.cons_append, ← List.append_assoc, List.flatMap_append, List.flatMap_singleton]
      at customers orders
    obtain ⟨customers', -, strangers⟩ := List.nodup_append.mp customers
    obtain ⟨orders', -, apart⟩ := List.nodup_append.mp orders
    have earlier := ih customers' orders'
      fun past d h ↦ step past d (h.trans (List.prefix_append _ _))
    refine step after d (List.prefix_refl _) ?_ earlier
    rw [history_append_singleton]
    refine turn_act (fun again ↦ ?_) fun oid given ↦ ?_
    · refine strangers c.id (List.mem_flatMap.mpr ⟨birth, ?_, born.mem_enrolled⟩) c.id again rfl
      exact List.mem_append_right _ List.mem_cons_self
    · rw [Table.find?_eq_none_iff]
      rintro o ho rfl
      obtain ⟨⟨d', hd', places⟩, -⟩ := origin_history settings _ o ho
      exact apart o.id (List.mem_flatMap.mpr ⟨d', hd', places.mem_placed⟩) o.id given rfl

end Life

end Crm

end Outreach
