import Outreach.Store.Customers
import Outreach.Store.Orders

/-!
# What is done to customers and orders

For each operation on customers and orders, one statement says all that it can do: either it is
refused and leaves the store as it was, or the records were such that it is carried out, and the
statement tells what it makes of the store. Where addresses for mail decide, there is an equation for
each ground of refusal.
-/

namespace Outreach

/-- The entry that stands for a customer in the index of addresses. -/
def Customer.owner (c : Customer) : Store.Owner := ⟨c.email, c.id⟩

namespace Store

/-! ## States after operations -/

/-- The store after a customer has been added, and the address taken. -/
def enrol (s : Store) (c : Customer) : Store :=
  { s with customers := s.customers.put c, emails := s.emails.put c.owner }

/-- The store after the record of a customer has been replaced. -/
def replace (s : Store) (c : Customer) : Store := { s with customers := s.customers.put c }

/-- The store after the record of a customer has been replaced, the new address taken, and the old
one given back. -/
def readdress (s : Store) (old c : Customer) : Store :=
  { s with
    customers := s.customers.put c
    emails := (s.emails.put c.owner).filter (· != old.owner) }

/-- The store after a customer has been removed, and the address given back. -/
def dismiss (s : Store) (c : Customer) : Store :=
  { s with customers := s.customers.erase c.id, emails := s.emails.filter (· != c.owner) }

/-! ## Customers -/

variable (s : Store) (stamp : Stamp) (id : Id)

theorem reserveEmail_of_taken {email : String} (h : s.emails.contains email = true) :
    s.reserveEmail email id = (.error .emailTaken, s) := if_pos h

theorem reserveEmail_of_free {email : String} (h : s.emails.contains email = false) :
    s.reserveEmail email id = (.ok (), { s with emails := s.emails.put ⟨email, id⟩ }) :=
  if_neg (Bool.eq_false_iff.mp h)

section Create

variable {r : Customer.New}

theorem createCustomer_of_invalid {f : Fault} (h : r.check = .error f) :
    s.createCustomer stamp r = (.error f, s) := by
  simp only [createCustomer, h]

theorem createCustomer_of_taken (valid : r.check = .ok ())
    (taken : s.emails.contains (Customer.normalizeEmail r.email) = true) :
    s.createCustomer stamp r = (.error .emailTaken, s) := by
  have taken' : s.emails.contains (r.customer stamp.id stamp.now).email = true := taken
  simp only [createCustomer, valid, reserveEmail_of_taken _ _ taken']

theorem createCustomer_of_free (valid : r.check = .ok ())
    (free : s.emails.contains (Customer.normalizeEmail r.email) = false) :
    s.createCustomer stamp r =
      (.ok (r.customer stamp.id stamp.now), s.enrol (r.customer stamp.id stamp.now)) := by
  have free' : s.emails.contains (r.customer stamp.id stamp.now).email = false := free
  simp only [createCustomer, valid, reserveEmail_of_free _ _ free']
  rfl

variable (r)

/-- A customer is made, unless the request does not pass its checks or the address is taken. -/
theorem createCustomer_cases :
    (∃ f, s.createCustomer stamp r = (.error f, s)) ∨
    s.emails.contains (Customer.normalizeEmail r.email) = false ∧
      let c := r.customer stamp.id stamp.now
      s.createCustomer stamp r = (.ok c, s.enrol c) := by
  cases valid : r.check with
  | error f => exact .inl ⟨f, s.createCustomer_of_invalid stamp valid⟩
  | ok _ =>
    cases taken : s.emails.contains (Customer.normalizeEmail r.email) with
    | true => exact .inl ⟨_, s.createCustomer_of_taken stamp valid taken⟩
    | false => exact .inr ⟨rfl, s.createCustomer_of_free stamp valid taken⟩

end Create

section Update

variable {r : Customer.Change} {c : Customer} {email : String}

theorem updateCustomer_of_invalid {f : Fault} (h : r.check = .error f) :
    s.updateCustomer stamp id r = (.error f, s) := by
  simp only [updateCustomer, h]

theorem updateCustomer_of_missing (valid : r.check = .ok ())
    (missing : s.customers.find? id = none) :
    s.updateCustomer stamp id r = (.error (.missing .customer), s) := by
  simp only [updateCustomer, valid, missing]

/-- A customer who keeps the address is changed. -/
theorem updateCustomer_of_stays (valid : r.check = .ok ()) (found : s.customers.find? id = some c)
    (stays : r.newEmail? c = none) :
    s.updateCustomer stamp id r =
      (.ok (r.apply c stamp.now), s.replace (r.apply c stamp.now)) := by
  simp only [updateCustomer, valid, found, stays]
  rfl

theorem updateCustomer_of_taken (valid : r.check = .ok ()) (found : s.customers.find? id = some c)
    (moves : r.newEmail? c = some email) (taken : s.emails.contains email = true) :
    s.updateCustomer stamp id r = (.error .emailTaken, s) := by
  simp only [updateCustomer, valid, found, moves, reserveEmail_of_taken _ _ taken]

/-- A customer gets a free address in place of the old one. -/
theorem updateCustomer_of_free (valid : r.check = .ok ()) (found : s.customers.find? id = some c)
    (moves : r.newEmail? c = some email) (free : s.emails.contains email = false) :
    s.updateCustomer stamp id r =
      (.ok (r.apply c stamp.now), s.readdress c (r.apply c stamp.now)) := by
  have here : c.id = id := Table.key_of_find? found
  subst here
  simp only [updateCustomer, valid, found, moves, reserveEmail_of_free _ _ free]
  simp [readdress, releaseEmail, Customer.owner, Customer.Change.apply, moves]

variable (r)

/-- A customer is changed, unless the request does not pass its checks, there is no such customer,
or the new address is taken. -/
theorem updateCustomer_cases :
    (∃ f, s.updateCustomer stamp id r = (.error f, s)) ∨
    ∃ c, s.customers.find? id = some c ∧
      let c' := r.apply c stamp.now
      (r.newEmail? c = none ∧ s.updateCustomer stamp id r = (.ok c', s.replace c') ∨
        ∃ email, r.newEmail? c = some email ∧ s.emails.contains email = false ∧
          s.updateCustomer stamp id r = (.ok c', s.readdress c c')) := by
  cases valid : r.check with
  | error f => exact .inl ⟨f, s.updateCustomer_of_invalid stamp id valid⟩
  | ok _ =>
    cases found : s.customers.find? id with
    | none => exact .inl ⟨_, s.updateCustomer_of_missing stamp id valid found⟩
    | some c =>
      cases moves : r.newEmail? c with
      | none =>
        have changed := s.updateCustomer_of_stays stamp id valid found moves
        exact .inr ⟨c, rfl, .inl ⟨moves, changed⟩⟩
      | some email =>
        cases taken : s.emails.contains email with
        | true => exact .inl ⟨_, s.updateCustomer_of_taken stamp id valid found moves taken⟩
        | false =>
          have changed := s.updateCustomer_of_free stamp id valid found moves taken
          exact .inr ⟨c, rfl, .inr ⟨email, moves, taken, changed⟩⟩

end Update

/-- A customer is removed if there is one. -/
theorem deleteCustomer_cases :
    (∃ f, s.deleteCustomer id = (.error f, s)) ∨
    ∃ c, s.customers.find? id = some c ∧ s.deleteCustomer id = (.ok (), s.dismiss c) := by
  unfold deleteCustomer
  cases found : s.customers.find? id with
  | none => exact .inl ⟨_, rfl⟩
  | some c =>
    have here : c.id = id := Table.key_of_find? found
    subst here
    exact .inr ⟨c, rfl, rfl⟩

/-- A record is added as it is if the address is free. -/
theorem insertCustomer_cases (c : Customer) :
    (s.emails.contains c.email = true ∧ s.insertCustomer c = (false, s)) ∨
    s.emails.contains c.email = false ∧ s.insertCustomer c = (true, s.enrol c) := by
  unfold insertCustomer
  cases taken : s.emails.contains c.email with
  | true => exact .inl ⟨rfl, by simp only [reserveEmail_of_taken _ _ taken]⟩
  | false =>
    refine .inr ⟨rfl, ?_⟩
    simp only [reserveEmail_of_free _ _ taken]
    rfl

/-! ## Orders -/

/-- An order counts for its customer: one visit more, what it costs, and the time. -/
theorem withOrder?_eq_some_iff {c c' : Customer} {amount : Float} {now : Calendar.Instant} :
    withOrder? c amount now = some c' ↔ ∃ visits : UInt64, c.visits.toNat + 1 = visits.toNat ∧
      c' = { c with
        totalSpending := c.totalSpending + amount
        visits
        lastPurchaseDate := some now
        updatedAt := now } := by
  simp only [withOrder?, Option.map_eq_some_iff, Decimal.plus?_eq_some_iff, UInt64.toNat_one,
    eq_comm (b := c')]

section Counted

variable {c c' : Customer} {amount : Float} {now : Calendar.Instant}

theorem owner_of_withOrder? (counted : withOrder? c amount now = some c') : c'.owner = c.owner := by
  obtain ⟨visits, -, rfl⟩ := withOrder?_eq_some_iff.mp counted
  rfl

theorem id_of_withOrder? (counted : withOrder? c amount now = some c') : c'.id = c.id :=
  congrArg Owner.customer (owner_of_withOrder? counted)

theorem totalSpending_of_withOrder? (counted : withOrder? c amount now = some c') :
    c'.totalSpending = c.totalSpending + amount := by
  obtain ⟨visits, -, rfl⟩ := withOrder?_eq_some_iff.mp counted
  rfl

theorem toNat_visits_of_withOrder? (counted : withOrder? c amount now = some c') :
    c'.visits.toNat = c.visits.toNat + 1 := by
  obtain ⟨visits, more, rfl⟩ := withOrder?_eq_some_iff.mp counted
  exact more.symm

/-- There is no room for one more visit exactly if the visits are all that 64 bits can tell. -/
theorem withOrder?_eq_none_iff : withOrder? c amount now = none ↔ c.visits.toNat + 1 = UInt64.size := by
  have few : c.visits.toNat + 1 ≤ UInt64.size := c.visits.toNat_lt_size
  rw [withOrder?, Option.map_eq_none_iff, Decimal.plus?_eq_none_iff, UInt64.toNat_one]
  exact ⟨Nat.le_antisymm few, Nat.le_of_eq ∘ Eq.symm⟩

end Counted

section Booked

variable {s stamp} {r : Order.New} {items : List Order.Item} {c c' : Customer}

/-- The store after an order has been placed, and its customer replaced. -/
def book (s : Store) (c : Customer) (o : Order) : Store :=
  { s.replace c with orderCount := s.orderCount + 1, orders := s.orders.put o }

theorem createOrder_of_room (priced : r.pricedItems = .ok items)
    (found : s.customers.find? r.customerId = some c)
    (room : withOrder? c r.totalAmount stamp.now = some c') :
    let o := newOrder r items stamp (s.orderCount + 1)
    s.createOrder stamp r = (.ok o, s.book c' o) := by
  simp only [createOrder, priced, found, newOrder_totalAmount, room]
  rfl

/-- A customer whose visits have no room for one more orders nothing. -/
theorem createOrder_of_full (priced : r.pricedItems = .ok items)
    (found : s.customers.find? r.customerId = some c)
    (full : withOrder? c r.totalAmount stamp.now = none) :
    s.createOrder stamp r = (.error .countFull, s) := by
  simp only [createOrder, priced, found, newOrder_totalAmount, full]

end Booked

/-- An order is placed and counts for its customer, unless it has no proper price, there is no such
customer, or the visits have no room for it. -/
theorem createOrder_cases (r : Order.New) :
    (∃ f, s.createOrder stamp r = (.error f, s)) ∨
    ∃ items c c', r.pricedItems = .ok items ∧ s.customers.find? r.customerId = some c ∧
      withOrder? c r.totalAmount stamp.now = some c' ∧
      let o := newOrder r items stamp (s.orderCount + 1)
      s.createOrder stamp r = (.ok o, s.book c' o) := by
  cases priced : r.pricedItems with
  | error f => exact .inl ⟨f, by simp only [createOrder, priced]⟩
  | ok items =>
    cases found : s.customers.find? r.customerId with
    | none => exact .inl ⟨.missing .customer, by simp only [createOrder, priced, found]⟩
    | some c =>
      cases counted : withOrder? c r.totalAmount stamp.now with
      | none => exact .inl ⟨_, createOrder_of_full priced found counted⟩
      | some c' =>
        have done := createOrder_of_room priced found counted
        exact .inr ⟨items, c, c', rfl, rfl, counted, done⟩

/-- The record of an order that is moved. -/
def moved (o : Order) (status : Order.Status) (now : Calendar.Instant) : Order :=
  { o with
    status
    deliveryDate := if status = .delivered then some now else o.deliveryDate
    updatedAt := now }

/-- An order is moved if there is one. -/
theorem updateOrderStatus_cases (status : Order.Status) :
    (∃ f, s.updateOrderStatus stamp id status = (.error f, s)) ∨
    ∃ o, s.orders.find? id = some o ∧
      let o' := moved o status stamp.now
      s.updateOrderStatus stamp id status = (.ok o', { s with orders := s.orders.put o' }) := by
  unfold updateOrderStatus
  cases s.orders.find? id with
  | none => exact .inl ⟨_, rfl⟩
  | some o => exact .inr ⟨o, rfl, rfl⟩

/-- An order is removed if there is one, and counts no longer for its customer, if that customer is
still there. -/
theorem deleteOrder_cases :
    (∃ f, s.deleteOrder stamp id = (.error f, s)) ∨
    ∃ o, s.orders.find? id = some o ∧
      let s' := { s with orders := s.orders.erase id }
      (s.customers.find? o.customerId = none ∧ s.deleteOrder stamp id = (.ok (), s') ∨
        ∃ c, s.customers.find? o.customerId = some c ∧
          s.deleteOrder stamp id =
            (.ok (), s'.replace (withoutOrder c o.totalAmount stamp.now))) := by
  unfold deleteOrder
  cases s.orders.find? id with
  | none => exact .inl ⟨_, rfl⟩
  | some o =>
    refine .inr ⟨o, rfl, ?_⟩
    cases buyer : s.customers.find? o.customerId with
    | none => exact .inl ⟨rfl, by simp only [buyer]⟩
    | some c => exact .inr ⟨c, rfl, by simp only [buyer]; rfl⟩

end Store

end Outreach
