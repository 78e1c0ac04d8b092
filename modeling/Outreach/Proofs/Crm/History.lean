import Outreach.Demo.Seed
import Outreach.Proofs.Crm.Run
import Outreach.Proofs.Store.Operations
import Outreach.Proofs.Table

/-!
# Histories

A history is a list of deeds of any kind: the events of a run, and the filling of the store for
demonstration, whether record by record or as a whole. Each deed runs to its end before the next one
begins, whether it is refused or not.

What is done to campaigns leaves customers and orders as they are.
-/

namespace Outreach

/-! ## Customers after a command -/

/-- Where a customer comes from that is there after a command. -/
inductive Store.CustomerOrigin (s : Store) (stamp : Stamp) : Store.Command → Customer → Prop where
  | kept (command : Store.Command) {c : Customer} (h : c ∈ s.customers.rows) :
      CustomerOrigin s stamp command c
  | made (r : Customer.New) (valid : r.check = .ok ()) :
      CustomerOrigin s stamp (.createCustomer r) (r.customer stamp.id stamp.now)
  | changed (id : Id) (r : Customer.Change) (valid : r.check = .ok ()) {c : Customer}
      (h : c ∈ s.customers.rows) :
      CustomerOrigin s stamp (.updateCustomer id r) (r.apply c stamp.now)
  /-- It was there before and places an order. -/
  | ordered (r : Order.New) {items : List Order.Item} (priced : r.pricedItems = .ok items)
      {c c' : Customer} (h : c ∈ s.customers.rows)
      (counted : withOrder? c r.totalAmount stamp.now = some c') :
      CustomerOrigin s stamp (.createOrder r) c'
  /-- It was there before and an order of it is removed. -/
  | unordered (id : Id) {o : Order} (there : o ∈ s.orders.rows) {c : Customer}
      (h : c ∈ s.customers.rows) :
      CustomerOrigin s stamp (.deleteOrder id) (withoutOrder c o.totalAmount stamp.now)

theorem Store.customerOrigin_obey (s : Store) (stamp : Stamp) (command : Store.Command) :
    ∀ c ∈ (s.obey stamp command).customers.rows, s.CustomerOrigin stamp command c := by
  have stay : ∀ c ∈ s.customers.rows, s.CustomerOrigin stamp command c := fun c h ↦ .kept command h
  cases command with
  | createCustomer r =>
    simp only [obey]
    cases valid : r.check with
    | error f => rwa [s.createCustomer_of_invalid stamp valid]
    | ok _ =>
      rcases s.createCustomer_cases stamp r with ⟨f, h⟩ | ⟨-, h⟩ <;> rw [h]
      · exact stay
      · exact Table.forall_put stay (.made r valid)
  | updateCustomer id r =>
    simp only [obey]
    cases valid : r.check with
    | error f => rwa [s.updateCustomer_of_invalid stamp id valid]
    | ok _ =>
      rcases s.updateCustomer_cases stamp id r with
        ⟨f, h⟩ | ⟨c, found, ⟨-, h⟩ | ⟨email, -, -, h⟩⟩ <;> rw [h]
      · exact stay
      · exact Table.forall_put stay (.changed id r valid (Table.mem_of_find? found))
      · exact Table.forall_put stay (.changed id r valid (Table.mem_of_find? found))
  | deleteCustomer id =>
    simp only [obey]
    rcases s.deleteCustomer_cases id with ⟨f, h⟩ | ⟨c, -, h⟩ <;> rw [h]
    · exact stay
    · exact Table.forall_erase stay
  | createOrder r =>
    simp only [obey]
    rcases s.createOrder_cases stamp r with
      ⟨f, h⟩ | ⟨items, c, c', priced, found, counted, h⟩ <;> rw [h]
    · exact stay
    · exact Table.forall_put stay (.ordered r priced (Table.mem_of_find? found) counted)
  | moveOrder id status =>
    simp only [obey]
    rcases s.updateOrderStatus_cases stamp id status with ⟨f, h⟩ | ⟨o, -, h⟩ <;> rw [h] <;>
      exact stay
  | deleteOrder id =>
    simp only [obey]
    rcases s.deleteOrder_cases stamp id with
      ⟨f, h⟩ | ⟨o, there, ⟨-, h⟩ | ⟨c, found, h⟩⟩ <;> rw [h]
    · exact stay
    · exact stay
    · have removed := Table.mem_of_find? there
      exact Table.forall_put stay (.unordered id removed (Table.mem_of_find? found))

/-! ## Orders after a command -/

/-- Where an order comes from that is there after a command. -/
inductive Store.OrderOrigin (s : Store) (stamp : Stamp) : Store.Command → Order → Prop where
  | kept (c : Store.Command) {o : Order} (h : o ∈ s.orders.rows) : OrderOrigin s stamp c o
  /-- It is placed, for a customer who is there. -/
  | made (r : Order.New) {items : List Order.Item} {c : Customer}
      (priced : r.pricedItems = .ok items) (buyer : s.customers.find? r.customerId = some c) :
      OrderOrigin s stamp (.createOrder r) (newOrder r items stamp (s.orderCount + 1))
  | moved (id : Id) (status : Order.Status) {o : Order} (h : o ∈ s.orders.rows) :
      OrderOrigin s stamp (.moveOrder id status) (moved o status stamp.now)

theorem Store.origin_obey (s : Store) (stamp : Stamp) (command : Store.Command) :
    ∀ o ∈ (s.obey stamp command).orders.rows, s.OrderOrigin stamp command o := by
  have stay : ∀ o ∈ s.orders.rows, s.OrderOrigin stamp command o := fun o h ↦ .kept command h
  cases command with
  | createCustomer r =>
    simp only [obey]
    rcases s.createCustomer_cases stamp r with ⟨f, h⟩ | ⟨-, h⟩ <;> rw [h] <;> exact stay
  | updateCustomer id r =>
    simp only [obey]
    rcases s.updateCustomer_cases stamp id r with
      ⟨f, h⟩ | ⟨c, -, ⟨-, h⟩ | ⟨email, -, -, h⟩⟩ <;> rw [h] <;> exact stay
  | deleteCustomer id =>
    simp only [obey]
    rcases s.deleteCustomer_cases id with ⟨f, h⟩ | ⟨c, -, h⟩ <;> rw [h] <;> exact stay
  | createOrder r =>
    simp only [obey]
    rcases s.createOrder_cases stamp r with
      ⟨f, h⟩ | ⟨items, c, c', priced, buyer, -, h⟩ <;> rw [h]
    · exact stay
    · exact Table.forall_put stay (.made r priced buyer)
  | moveOrder id status =>
    simp only [obey]
    rcases s.updateOrderStatus_cases stamp id status with ⟨f, h⟩ | ⟨o, found, h⟩ <;> rw [h]
    · exact stay
    · exact Table.forall_put stay (.moved id status (Table.mem_of_find? found))
  | deleteOrder id =>
    simp only [obey]
    rcases s.deleteOrder_cases stamp id with
      ⟨f, h⟩ | ⟨o, -, ⟨-, h⟩ | ⟨c, -, h⟩⟩ <;> rw [h]
    · exact stay
    · exact Table.forall_erase stay
    · exact Table.forall_erase stay

/-! ## Customers and orders while campaigns change -/

/-- Customers, their addresses and orders are the same in two states. -/
structure Store.SameRecords (s s' : Store) : Prop where
  customers : s'.customers = s.customers
  emails : s'.emails = s.emails
  orders : s'.orders = s.orders
  orderCount : s'.orderCount = s.orderCount

namespace Store.SameRecords

theorem refl (s : Store) : s.SameRecords s := ⟨rfl, rfl, rfl, rfl⟩

/-- What is filed concerns campaigns only. -/
theorem filed (s : Store) (stamp : Stamp) (user : String) (action : Audit.Action) (id : Id)
    (details : List (String × Json)) (campaigns : Table Campaign.id) :
    s.SameRecords (s.filed stamp user action id details campaigns) := ⟨rfl, rfl, rfl, rfl⟩

end Store.SameRecords

/-- Orders for demonstration do not count for their customers, and concern no campaigns. -/
theorem Demo.addOrders_frame (now : Calendar.Instant) (ids : Nat → Id) (chance : Demo.Chance)
    (customers : List Id) (n : Nat) (s : Store) :
    (addOrders now ids chance customers n s).customers = s.customers ∧
      (addOrders now ids chance customers n s).emails = s.emails ∧
      (addOrders now ids chance customers n s).campaigns = s.campaigns := by
  induction n generalizing s with
  | zero => exact ⟨rfl, rfl, rfl⟩
  | succ n ih =>
    simp only [addOrders]
    split
    · exact ⟨rfl, rfl, rfl⟩
    · exact ih _

/-- Campaigns for demonstration concern no customers and no orders. -/
theorem Demo.sameRecords_addCampaigns (now : Calendar.Instant) (ids : Nat → Id) (admin : User)
    (n : Nat) (ts : List Demo.Theme) (s : Store) :
    s.SameRecords (addCampaigns now ids admin n ts s) := by
  induction ts generalizing n s with
  | nil => exact .refl s
  | cons t ts ih =>
    obtain ⟨customers, emails, orders, orderCount⟩ := ih (n + 1) (s.putCampaign _)
    exact ⟨customers, emails, orders, orderCount⟩

/-- A customer that is added has no orders. -/
theorem Store.insertCustomer_frame (s : Store) (c : Customer) :
    (s.insertCustomer c).2.orders = s.orders ∧
      (s.insertCustomer c).2.orderCount = s.orderCount := by
  rcases s.insertCustomer_cases c with ⟨-, h⟩ | ⟨-, h⟩ <;> rw [h] <;> exact ⟨rfl, rfl⟩

/-- Customers for demonstration have no orders. -/
theorem Demo.addCustomers_frame (now : Calendar.Instant) (ids : Nat → Id) (chance : Demo.Chance)
    (n : Nat) (names : List String) (s : Store) :
    (addCustomers now ids chance n names s).2.orders = s.orders ∧
      (addCustomers now ids chance n names s).2.orderCount = s.orderCount := by
  induction names generalizing n s with
  | nil => exact ⟨rfl, rfl⟩
  | cons name names ih =>
    let c := customer name (ids n) now fun k ↦ chance (64 * n + k)
    obtain ⟨orders, orderCount⟩ := s.insertCustomer_frame c
    obtain ⟨orders', orderCount'⟩ := ih (n + 1) (s.insertCustomer c).2
    exact ⟨orders'.trans orders, orderCount'.trans orderCount⟩

/-- The store is filled with customers, then with orders among them, then with campaigns. -/
theorem Demo.snd_seed (now : Calendar.Instant) (admin : User) (ids : Nat → Id)
    (chance : Demo.Chance) (s : Store) : (seed s now admin ids chance).2 =
      addCampaigns now ids admin 0 (themes now) (addOrders now ids chance
        (addCustomers now ids chance 0 names s).1 orderTotal
        (addCustomers now ids chance 0 names s).2) := by
  unfold seed
  generalize addCustomers now ids chance 0 names s = added
  rfl

namespace Crm

variable {settings : Settings.Campaigns}

/-- A command about campaigns leaves customers and orders as they are. -/
theorem sameRecords_obey (w : Crm) (stamp : Stamp) (c : Command) (h : ∀ r, c ≠ .records r) :
    w.store.SameRecords (w.obey settings stamp c).store := by
  cases c with
  | records r => exact absurd rfl (h r)
  | create user r =>
    simp only [obey]
    rcases w.createCampaign_cases stamp user r with ⟨f, h⟩ | h <;> rw [h]
    · exact .refl _
    · exact .filed ..
  | update user id r =>
    simp only [obey]
    rcases w.updateCampaign_cases stamp user id r with ⟨f, h⟩ | ⟨c, -, -, -, h⟩ <;> rw [h]
    · exact .refl _
    · exact .filed ..
  | delete user id =>
    simp only [obey]
    rcases w.deleteCampaign_cases stamp user id with ⟨f, h⟩ | ⟨c, -, -, h⟩ <;> rw [h]
    · exact .refl _
    · exact .filed ..
  | start user id =>
    simp only [obey]
    rcases w.startCampaign_cases settings stamp user id with ⟨f, h⟩ | ⟨c, run, -, -, -, h⟩ <;> rw [h]
    · exact .refl _
    · exact .filed ..
  | pause user id =>
    simp only [obey]
    rcases w.pauseCampaign_cases stamp user id with ⟨f, h⟩ | ⟨c, -, -, h⟩ <;> rw [h]
    · exact .refl _
    · exact .filed ..

/-- A timer that goes off leaves customers and orders as they are. -/
theorem sameRecords_goOff (w : Crm) (stamp : Stamp) (t : Campaign.Timer) :
    w.store.SameRecords (w.goOff stamp t).store := by
  simp only [goOff]
  rcases completeRun_cases stamp t.campaign w.store t.run with ⟨h, -⟩ | ⟨c, -, -, -, h⟩ <;> rw [h]
  · exact .refl _
  · exact .filed ..

/-- An event is a command about customers and orders, or it leaves these as they are. -/
theorem records_or_sameRecords (settings : Settings.Campaigns) (w : Crm) (stamp : Stamp)
    (e : Event) :
    (∃ c, e = .command (.records c) ∧
      (w.after settings stamp e).store = w.store.obey stamp c) ∨
    w.store.SameRecords (w.after settings stamp e).store := by
  rcases e with (c | _ | _ | _ | _ | _) | t
  case command.records => exact .inl ⟨c, rfl, rfl⟩
  case timer => exact .inr (sameRecords_goOff w stamp t)
  all_goals exact .inr (sameRecords_obey w stamp _ (by simp))

/-! ## Deeds -/

inductive Deed where
  | event (stamp : Stamp) (e : Event)
  /-- A customer is added without any checks but that the address is free. -/
  | insert (c : Customer)
  | fill (now : Calendar.Instant) (admin : User) (ids : Nat → Id) (chance : Demo.Chance)

def act (settings : Settings.Campaigns) (w : Crm) : Deed → Crm
  | .event stamp e => w.after settings stamp e
  | .insert c => { w with store := (w.store.insertCustomer c).2 }
  | .fill now admin ids chance => { w with store := (Demo.seed w.store now admin ids chance).2 }

theorem store_act_fill (w : Crm) (now : Calendar.Instant) (admin : User) (ids : Nat → Id)
    (chance : Demo.Chance) :
    (w.act settings (.fill now admin ids chance)).store =
      (Demo.seed w.store now admin ids chance).2 := by
  simp only [act]

def history (settings : Settings.Campaigns) (w : Crm) (deeds : List Deed) : Crm :=
  deeds.foldl (act settings) w

theorem history_cons (w : Crm) (d : Deed) (deeds : List Deed) :
    w.history settings (d :: deeds) = (w.act settings d).history settings deeds := rfl

end Crm

end Outreach
