import Outreach.Proofs.Crm.History
import Outreach.Proofs.Customer.Email
import Outreach.Proofs.Order.Pricing
import Outreach.Proofs.Table

/-!
# Proper records

The checks look at what is asked for, and what is stored is trimmed or put into its normal form
afterwards. Still the stored records have what the checks ask: trimming leaves the length that was
counted and the content that was looked for, and the normal form of an address has the form of an
address if the address has.

What new and changed customers have, and what orders that are placed or removed do not take away, all
customers have in every state of every run; and so it is with orders and campaigns.
-/

namespace Outreach

open Text

/-! ## Checks and names -/

theorem forM_eq_ok {α : Type} {f : α → Except Fault Unit} {o : Option α} :
    o.forM f = .ok () ↔ ∀ a, o = some a → f a = .ok () := by
  cases o <;> simp [pure, Except.pure]

/-- A check that refuses something is passed if it is not the case. -/
theorem refuse_eq_ok {p : Prop} [Decidable p] {f : Fault} :
    (if p then Except.error f else .ok ()) = .ok () ↔ ¬p := by
  split <;> simp [*]

/-- Two checks one after the other are passed if both are. -/
theorem seq_eq_ok {x y : Except Fault Unit} :
    (do x; y) = .ok () ↔ x = .ok () ∧ y = .ok () := by
  cases x <;> simp [bind, Except.bind]

/-- What is given if anything is, and what is kept otherwise. -/
theorem getD_cases {α : Type} {P : α → Prop} {o : Option α} {b : α}
    (given : ∀ a, o = some a → P a) (kept : P b) : P (o.getD b) := by
  cases o with
  | none => exact kept
  | some a => exact given a rfl

/-- The name of a customer or a campaign as the checks let it pass. -/
structure IsName (name : String) : Prop where
  trimmed : Trimmed name.toList
  two_le : 2 ≤ name.length

/-- A name that passes the check is long enough, whichever fault a shorter one would be. -/
theorem two_le_of_checkName {short : Fault} {name : String} (h : short.checkName name = .ok ()) :
    2 ≤ (trimChars name.toList).length :=
  Nat.not_lt.mp (refuse_eq_ok.mp h)

theorem trimmed_trim (s : String) : Trimmed (trim s).toList := by
  rw [toList_trim]
  exact trimmed_trimChars _

/-- What is checked before the white space around a name is taken away, holds after it. -/
theorem isName_trim {name : String} (h : 2 ≤ (trimChars name.toList).length) :
    IsName (trim name) where
  trimmed := trimmed_trim name
  two_le := by
    rw [trim, String.length_ofList]
    exact h

/-- A name is proper if it is kept, or given and passes the check. -/
theorem IsName.getD {name : String} {new : Option String}
    (given : ∀ s, new = some s → 2 ≤ (trimChars s.toList).length) (kept : IsName name) :
    IsName ((new.map trim).getD name) := by
  refine getD_cases (fun s hs ↦ ?_) kept
  obtain ⟨raw, hraw, rfl⟩ := Option.map_eq_some_iff.mp hs
  exact isName_trim (given raw hraw)

/-! ## Customers -/

/-- A customer as the checks let it pass. -/
structure Customer.Proper (c : Customer) : Prop where
  name : IsName c.name
  /-- The address for mail has the form of one -/
  email : isEmail c.email = true
  normal : normalizeEmail c.email = c.email
  /-- A telephone number is not empty and has no white space around it. -/
  phone : ∀ p, c.phone = some p → p ≠ "" ∧ Trimmed p.toList

/-- What new customers have and no change takes away. -/
structure Customer.Lasting (P : Customer → Prop) : Prop where
  made : ∀ (r : New) id now, r.check = .ok () → P (r.customer id now)
  changed : ∀ (r : Change) c now, r.check = .ok () → P c → P (r.apply c now)
  ordered : ∀ c c' items amount now, Order.Priced items amount →
    Store.withOrder? c amount now = some c' → P c → P c'
  unordered : ∀ c amount now, P c → P (Store.withoutOrder c amount now)

namespace Store

variable {s : Store} {P : Customer → Prop}

/-- What lasts, all customers have after any command. -/
theorem forall_customers_obey (lasting : Customer.Lasting P)
    (before : ∀ c ∈ s.customers.rows, P c) (stamp : Stamp) (command : Store.Command) :
    ∀ c ∈ (s.obey stamp command).customers.rows, P c := by
  intro c hc
  cases s.customerOrigin_obey stamp command c hc with
  | kept _ h => exact before c h
  | made r valid => exact lasting.made r _ _ valid
  | changed id r valid h => exact lasting.changed r _ _ valid (before _ h)
  | ordered r priced h counted =>
    exact lasting.ordered _ _ _ _ _ (Order.New.priced_of_pricedItems priced) counted (before _ h)
  | unordered id there h => exact lasting.unordered _ _ _ (before _ h)

end Store

namespace Customer

variable {email phone : String}

theorem isEmail_of_checkEmail (h : checkEmail email = .ok ()) : isEmail email = true := by
  rw [checkEmail] at h
  split at h
  · assumption
  · cases h

/-- A telephone number that is stored is not empty and has no white space around it. -/
theorem proper_phoneOf {p : String} (h : phoneOf phone = some p) :
    p ≠ "" ∧ Trimmed p.toList := by
  rw [phoneOf] at h
  split at h
  · cases h
  · next something =>
    cases h
    rw [Bool.not_eq_true] at something
    exact ⟨trim_ne_empty something, trimmed_trim phone⟩

/-- A new customer has a name and an address as they should be. -/
theorem New.of_check {r : New} (h : r.check = .ok ()) :
    checkName r.name = .ok () ∧ checkEmail r.email = .ok () := by
  obtain ⟨name, rest⟩ := seq_eq_ok.mp h
  obtain ⟨email, -⟩ := seq_eq_ok.mp rest
  exact ⟨name, email⟩

/-- A change gives a name and an address as they should be, if any. -/
theorem Change.of_check {r : Change} (h : r.check = .ok ()) :
    (∀ name, r.name = some name → checkName name = .ok ()) ∧
      ∀ email, r.email = some email → checkEmail email = .ok () := by
  obtain ⟨name, rest⟩ := seq_eq_ok.mp h
  obtain ⟨email, -⟩ := seq_eq_ok.mp rest
  exact ⟨forM_eq_ok.mp name, forM_eq_ok.mp email⟩

/-- A new address is the normal form of the one that is asked for. -/
theorem email_of_newEmail? {r : Change} {c : Customer} (h : r.newEmail? c = some email) :
    ∃ raw, r.email = some raw ∧ normalizeEmail raw = email := by
  obtain ⟨given, -⟩ := Option.filter_eq_some_iff.mp h
  exact Option.map_eq_some_iff.mp given

/-- Addresses are stored in their normal form, and kept in it. -/
theorem lasting_normal : Lasting fun c ↦ normalizeEmail c.email = c.email where
  made r _ _ _ := normalizeEmail_normalizeEmail r.email
  changed r c now _ before := by
    refine getD_cases (P := fun s ↦ normalizeEmail s = s) (fun s hs ↦ ?_) before
    obtain ⟨raw, -, rfl⟩ := email_of_newEmail? hs
    exact normalizeEmail_normalizeEmail raw
  ordered c c' items amount now _ counted before := by
    obtain ⟨visits, -, rfl⟩ := Store.withOrder?_eq_some_iff.mp counted
    exact before
  unordered _ _ _ before := before

/-- Customers are proper when they are made, and remain so. -/
theorem lasting_proper : Lasting Proper where
  made r id now valid := by
    obtain ⟨name, email⟩ := New.of_check valid
    constructor
    · exact isName_trim (two_le_of_checkName name)
    · rw [New.customer, isEmail_normalizeEmail]
      exact isEmail_of_checkEmail email
    · exact lasting_normal.made r id now valid
    · intro p hp
      obtain ⟨phone, -, stored⟩ := Option.bind_eq_some_iff.mp hp
      exact proper_phoneOf stored
  changed r c now valid before := by
    obtain ⟨names, emails⟩ := Change.of_check valid
    constructor
    · exact before.name.getD fun s hs ↦ two_le_of_checkName (names s hs)
    · refine getD_cases (P := fun s ↦ isEmail s = true) (fun s hs ↦ ?_) before.email
      obtain ⟨raw, given, rfl⟩ := email_of_newEmail? hs
      rw [isEmail_normalizeEmail]
      exact isEmail_of_checkEmail (emails raw given)
    · exact lasting_normal.changed r c now valid before.normal
    · intro p hp
      cases given : r.phone with
      | none =>
        simp only [Change.apply, given] at hp
        exact before.phone p hp
      | some phone =>
        simp only [Change.apply, given] at hp
        exact proper_phoneOf hp
  ordered c c' items amount now _ counted before := by
    obtain ⟨visits, -, rfl⟩ := Store.withOrder?_eq_some_iff.mp counted
    exact ⟨before.1, before.2, before.3, before.4⟩
  unordered c amount now before := ⟨before.1, before.2, before.3, before.4⟩

end Customer

/-! ## Orders -/

def Order.Proper (o : Order) : Prop := Priced o.items o.totalAmount

/-- What orders that are placed have and no move takes away. -/
structure Order.Lasting (P : Order → Prop) : Prop where
  made : ∀ (r : New) items stamp count, Priced items r.totalAmount →
    P (Store.newOrder r items stamp count)
  moved : ∀ o status now, P o → P (Store.moved o status now)

/-- Orders are proper when they are placed, and remain so. -/
theorem Order.lasting_proper : Lasting Proper where
  made _ _ _ _ priced := priced
  moved _ _ _ before := before

/-- What lasts, all orders have after any command. -/
theorem Store.forall_orders_obey {s : Store} {P : Order → Prop} (lasting : Order.Lasting P)
    (before : ∀ o ∈ s.orders.rows, P o) (stamp : Stamp) (command : Store.Command) :
    ∀ o ∈ (s.obey stamp command).orders.rows, P o := by
  intro o ho
  cases s.origin_obey stamp command o ho with
  | kept _ h => exact before o h
  | made r priced _ => exact lasting.made r _ _ _ (Order.New.priced_of_pricedItems priced)
  | moved _ status h => exact lasting.moved _ status _ (before _ h)

/-! ## Campaigns -/

/-- A campaign as the checks let it pass. -/
structure Campaign.Proper (c : Campaign) : Prop where
  name : IsName c.name
  content : isBlankText c.message.content = false

namespace Campaign

variable {r : Edit} {size : List Rule → UInt64} {stamp : Stamp} {c : Campaign}

theorem not_blank_of_check {m : Message} (h : m.check = .ok ()) : isBlankText m.content = false :=
  Bool.not_eq_true _ ▸ refuse_eq_ok.mp h

/-- A campaign that is made is proper. -/
theorem proper_newCampaign {r : New} {size : UInt64} {user : User} (valid : r.check = .ok ()) :
    (Crm.newCampaign r size user stamp).Proper := by
  obtain ⟨name, content⟩ := seq_eq_ok.mp valid
  constructor
  · exact isName_trim (two_le_of_checkName name)
  · exact not_blank_of_check content

/-- A proper campaign is proper after an edit. -/
theorem Proper.edited (before : c.Proper) (valid : r.check = .ok ()) :
    (Crm.edited r size c stamp.now).Proper := by
  obtain ⟨names, messages⟩ := seq_eq_ok.mp valid
  rw [forM_eq_ok] at names messages
  refine ⟨before.name.getD fun s hs ↦ two_le_of_checkName (names s hs), ?_⟩
  refine getD_cases (P := fun m : Message ↦ isBlankText m.content = false) (fun m hm ↦ ?_)
    before.content
  exact not_blank_of_check (messages m hm)

end Campaign

namespace Crm

variable {settings : Settings.Campaigns} {w : Crm} {stamp : Stamp}

theorem createCampaign_of_invalid {user : User} {r : Campaign.New} {f : Fault}
    (h : r.check = .error f) : w.createCampaign stamp user r = (.error f, w) := by
  simp only [createCampaign, h]

theorem updateCampaign_of_invalid {user : User} {id : Id} {r : Campaign.Edit} {f : Fault}
    (h : r.check = .error f) : w.updateCampaign stamp user id r = (.error f, w) := by
  simp only [updateCampaign, h]

/-- All campaigns are proper after any command. -/
theorem forall_campaigns_obey (before : ∀ c ∈ w.store.campaigns.rows, c.Proper) (stamp : Stamp)
    (command : Command) : ∀ c ∈ (w.obey settings stamp command).store.campaigns.rows, c.Proper := by
  cases command with
  | records c =>
    simp only [obey, (w.store.obey_frame stamp c).1]
    exact before
  | create user r =>
    simp only [obey]
    cases valid : r.check with
    | error f => rwa [createCampaign_of_invalid valid]
    | ok _ =>
      rcases w.createCampaign_cases stamp user r with ⟨f, h⟩ | h <;> rw [h]
      · exact before
      · exact Table.forall_put before (Campaign.proper_newCampaign valid)
  | update user id r =>
    simp only [obey]
    cases valid : r.check with
    | error f => rwa [updateCampaign_of_invalid valid]
    | ok _ =>
      rcases w.updateCampaign_cases stamp user id r with ⟨f, h⟩ | ⟨c, found, -, -, h⟩ <;> rw [h]
      · exact before
      · have proper := before c (Table.mem_of_find? found)
        exact Table.forall_put before (proper.edited valid)
  | delete user id =>
    simp only [obey]
    rcases w.deleteCampaign_cases stamp user id with ⟨f, h⟩ | ⟨c, -, -, h⟩ <;> rw [h]
    · exact before
    · exact Table.forall_erase before
  | start user id =>
    simp only [obey]
    rcases w.startCampaign_cases settings stamp user id with
      ⟨f, h⟩ | ⟨c, run, found, -, -, h⟩ <;> rw [h]
    · exact before
    · obtain ⟨name, content⟩ := before c (Table.mem_of_find? found)
      exact Table.forall_put before ⟨name, content⟩
  | pause user id =>
    simp only [obey]
    rcases w.pauseCampaign_cases stamp user id with ⟨f, h⟩ | ⟨c, found, -, h⟩ <;> rw [h]
    · exact before
    · obtain ⟨name, content⟩ := before c (Table.mem_of_find? found)
      exact Table.forall_put before ⟨name, content⟩

/-- All campaigns are proper after a timer has gone off. -/
theorem forall_campaigns_goOff (before : ∀ c ∈ w.store.campaigns.rows, c.Proper) (stamp : Stamp)
    (t : Campaign.Timer) : ∀ c ∈ (w.goOff stamp t).store.campaigns.rows, c.Proper := by
  simp only [goOff]
  rcases completeRun_cases stamp t.campaign w.store t.run with
    ⟨h, -⟩ | ⟨c, found, -, -, h⟩ <;> rw [h]
  · exact before
  · obtain ⟨name, content⟩ := before c (Table.mem_of_find? found)
    exact Table.forall_put before ⟨name, content⟩

end Crm

/-! ## All records -/

/-- All records are as the checks let them pass. -/
structure Store.Proper (s : Store) : Prop where
  customers : ∀ c ∈ s.customers.rows, c.Proper
  orders : ∀ o ∈ s.orders.rows, o.Proper
  campaigns : ∀ c ∈ s.campaigns.rows, c.Proper

namespace Crm

variable {settings : Settings.Campaigns} {w : Crm}

/-- What lasts, all customers have after any event. -/
theorem forall_customers_after {P : Customer → Prop} (lasting : Customer.Lasting P)
    (before : ∀ c ∈ w.store.customers.rows, P c) (stamp : Stamp) (e : Event) :
    ∀ c ∈ (w.after settings stamp e).store.customers.rows, P c := by
  rcases w.records_or_sameRecords settings stamp e with ⟨c, -, h⟩ | same
  · rw [h]
    exact Store.forall_customers_obey lasting before stamp c
  · rw [same.customers]
    exact before

/-- What lasts, all orders have after any event. -/
theorem forall_orders_after {P : Order → Prop} (lasting : Order.Lasting P)
    (before : ∀ o ∈ w.store.orders.rows, P o) (stamp : Stamp) (e : Event) :
    ∀ o ∈ (w.after settings stamp e).store.orders.rows, P o := by
  rcases w.records_or_sameRecords settings stamp e with ⟨c, -, h⟩ | same
  · rw [h]
    exact Store.forall_orders_obey lasting before stamp c
  · rw [same.orders]
    exact before

/-- An event leaves proper records, whatever is asked. -/
theorem proper_after (before : w.store.Proper) (stamp : Stamp) (e : Event) :
    (w.after settings stamp e).store.Proper where
  customers := forall_customers_after Customer.lasting_proper before.customers stamp e
  orders := forall_orders_after Order.lasting_proper before.orders stamp e
  campaigns := by
    cases e with
    | command command => exact forall_campaigns_obey before.campaigns stamp command
    | timer t => exact forall_campaigns_goOff before.campaigns stamp t

/-- A run leaves proper records. -/
theorem proper_run (before : w.store.Proper) (events : List (Stamp × Event)) :
    (w.run settings events).store.Proper := by
  induction events generalizing w with
  | nil => exact before
  | cons e events ih => exact ih (proper_after before e.1 e.2)

/-- In every state of every run from an empty store, be the requests valid or not, all records are as
the checks let them pass. -/
theorem records_proper (settings : Settings.Campaigns) (events : List (Stamp × Event)) :
    (empty.run settings events).store.Proper := by
  apply proper_run
  constructor <;> intro x hx <;> cases hx

end Crm

/-! ## Records in histories -/

section Customers

variable {P : Customer → Prop}

theorem Store.forall_customers_insert {s : Store} {c : Customer}
    (before : ∀ c ∈ s.customers.rows, P c) (new : P c) :
    ∀ d ∈ (s.insertCustomer c).2.customers.rows, P d := by
  rcases s.insertCustomer_cases c with ⟨-, h⟩ | ⟨-, h⟩ <;> rw [h]
  · exact before
  · exact Table.forall_put before new

/-- What customers for demonstration have, all customers have after these were added. -/
theorem Demo.forall_customers_addCustomers (now : Calendar.Instant) (ids : Nat → Id)
    (chance : Chance) (n : Nat) {names : List String} {s : Store}
    (shown : ∀ name ∈ names, ∀ id now chance, P (customer name id now chance))
    (before : ∀ c ∈ s.customers.rows, P c) :
    ∀ c ∈ (addCustomers now ids chance n names s).2.customers.rows, P c := by
  induction names generalizing n s with
  | nil => exact before
  | cons name names ih =>
    refine ih (n + 1) (fun other hother ↦ shown other (List.mem_cons_of_mem _ hother)) ?_
    exact Store.forall_customers_insert before (shown name List.mem_cons_self _ _ _)

theorem Demo.forall_customers_seed (now : Calendar.Instant) (admin : User) (ids : Nat → Id)
    (chance : Chance) {s : Store}
    (shown : ∀ name ∈ names, ∀ id now chance, P (customer name id now chance))
    (before : ∀ c ∈ s.customers.rows, P c) :
    ∀ c ∈ (seed s now admin ids chance).2.customers.rows, P c := by
  rw [snd_seed, (sameRecords_addCampaigns ..).customers, (addOrders_frame ..).1]
  exact forall_customers_addCustomers now ids chance 0 shown before

namespace Crm

variable {settings : Settings.Campaigns} {w : Crm}

/-- What lasts, and the records have that a history adds as they are, all customers have after it. -/
theorem forall_customers_history (lasting : Customer.Lasting P)
    (shown : ∀ name ∈ Demo.names, ∀ id now chance, P (Demo.customer name id now chance))
    {deeds : List Deed} (inserted : ∀ c, .insert c ∈ deeds → P c)
    (before : ∀ c ∈ w.store.customers.rows, P c) :
    ∀ c ∈ (w.history settings deeds).store.customers.rows, P c := by
  induction deeds generalizing w with
  | nil => exact before
  | cons d deeds ih =>
    refine ih (fun c hc ↦ inserted c (List.mem_cons_of_mem _ hc)) ?_
    cases d with
    | event stamp e => exact forall_customers_after lasting before stamp e
    | insert c => exact Store.forall_customers_insert before (inserted c List.mem_cons_self)
    | fill now admin ids chance =>
      rw [store_act_fill]
      exact Demo.forall_customers_seed now admin ids chance shown before

end Crm

end Customers

section Orders

variable {P : Order → Prop}

/-- What orders for demonstration have, all orders have after these were added. -/
theorem Demo.forall_orders_addOrders (now : Calendar.Instant) (ids : Nat → Id) (chance : Chance)
    (customers : List Id) (n : Nat) {s : Store}
    (shown : ∀ id customerId count now chance, P (order id customerId count now chance))
    (before : ∀ o ∈ s.orders.rows, P o) :
    ∀ o ∈ (addOrders now ids chance customers n s).orders.rows, P o := by
  induction n generalizing s with
  | zero => exact before
  | succ n ih =>
    simp only [addOrders]
    split
    · exact before
    · exact ih (Table.forall_put before (shown _ _ _ _ _))

theorem Demo.forall_orders_seed (now : Calendar.Instant) (admin : User) (ids : Nat → Id)
    (chance : Chance) {s : Store}
    (shown : ∀ id customerId count now chance, P (order id customerId count now chance))
    (before : ∀ o ∈ s.orders.rows, P o) :
    ∀ o ∈ (seed s now admin ids chance).2.orders.rows, P o := by
  rw [snd_seed, (sameRecords_addCampaigns ..).orders]
  refine forall_orders_addOrders now ids chance _ _ shown ?_
  rw [(addCustomers_frame ..).1]
  exact before

/-- What lasts, and orders for demonstration have, all orders have after a history. -/
theorem Crm.forall_orders_history {settings : Settings.Campaigns} {w : Crm}
    (lasting : Order.Lasting P)
    (shown : ∀ id customerId count now chance, P (Demo.order id customerId count now chance))
    (before : ∀ o ∈ w.store.orders.rows, P o) (deeds : List Deed) :
    ∀ o ∈ (w.history settings deeds).store.orders.rows, P o := by
  induction deeds generalizing w with
  | nil => exact before
  | cons d deeds ih =>
    apply ih
    cases d with
    | event stamp e => exact forall_orders_after lasting before stamp e
    | insert c =>
      simp only [act, (w.store.insertCustomer_frame c).1]
      exact before
    | fill now admin ids chance =>
      rw [store_act_fill]
      exact Demo.forall_orders_seed now admin ids chance shown before

end Orders

end Outreach
