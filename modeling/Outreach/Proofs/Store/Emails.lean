import Outreach.Proofs.Crm.History
import Outreach.Proofs.Table

/-!
# Addresses and their owners

Whatever is done, the index of addresses for mail holds one entry for each customer, the stored
address with the identity of its owner, and no other entry. So no address belongs to two customers,
a request is refused as a conflict exactly if another customer has the address that it asks for, and
an address that is given up is free again at once.

The index is kept exact by the five things that can happen to a customer: the record is added,
replaced, given another address or removed, or nothing happens at all. Identities of customers that
are added have to be new, which is asked of a whole history at its beginning.
-/

namespace Outreach.Store

variable {s s' : Store} {c c' : Customer}

/-! ## The exact index -/

/-- The index of addresses has the entries of the customers. -/
def Indexed (s : Store) : Prop := ∀ o, o ∈ s.emails.rows ↔ ∃ c ∈ s.customers.rows, c.owner = o

namespace Indexed

theorem empty : Store.empty.Indexed := by simp [Indexed, Store.empty]

/-- Only customers and their addresses matter. -/
theorem congr (h : s.Indexed) (customers : s'.customers = s.customers)
    (emails : s'.emails = s.emails) : s'.Indexed := by
  rw [Indexed, customers, emails]
  exact h

theorem owner_mem (h : s.Indexed) (hc : c ∈ s.customers.rows) : c.owner ∈ s.emails.rows :=
  (h c.owner).mpr ⟨c, hc, rfl⟩

/-- An exact index holds one entry for each customer. -/
theorem perm (h : s.Indexed) : s.emails.rows.Perm (s.customers.rows.map Customer.owner) := by
  have distinct : (s.customers.rows.map Customer.owner).Nodup := by
    refine .of_map Owner.customer ?_
    rw [List.map_map]
    exact s.customers.nodup
  rw [List.perm_ext_iff_of_nodup s.emails.nodup_rows distinct]
  intro o
  rw [h o, List.mem_map]

/-- No address belongs to two customers. -/
theorem eq_of_email_eq (h : s.Indexed) (hc : c ∈ s.customers.rows) (hc' : c' ∈ s.customers.rows)
    (same : c.email = c'.email) : c = c' := by
  have entry : c.owner = c'.owner := Table.eq_of_key_eq (h.owner_mem hc) (h.owner_mem hc') same
  exact Table.eq_of_key_eq hc hc' (congrArg Owner.customer entry)

/-- The taken addresses are those of the customers. -/
theorem contains_iff (h : s.Indexed) {email : String} :
    s.emails.contains email = true ↔ ∃ c ∈ s.customers.rows, c.email = email := by
  rw [Table.contains_iff]
  constructor
  · rintro ⟨o, ho, rfl⟩
    obtain ⟨c, hc, rfl⟩ := (h o).mp ho
    exact ⟨c, hc, rfl⟩
  · rintro ⟨c, hc, rfl⟩
    exact ⟨c.owner, h.owner_mem hc, rfl⟩

/-- A free address is that of no customer. -/
theorem email_ne (h : s.Indexed) {email : String} (free : s.emails.contains email = false)
    (hc : c ∈ s.customers.rows) : c.email ≠ email :=
  Table.contains_eq_false_iff.mp free c.owner (h.owner_mem hc)

/-! ## What keeps the index exact -/

/-- A new customer with a free address is added. -/
theorem enrol (h : s.Indexed) (free : s.emails.contains c.email = false)
    (new : s.customers.find? c.id = none) : (s.enrol c).Indexed := by
  intro o
  simp only [Store.enrol, Table.mem_put, h o]
  constructor
  · rintro (rfl | ⟨⟨d, hd, rfl⟩, -⟩)
    · exact ⟨c, .inl rfl, rfl⟩
    · exact ⟨d, .inr ⟨hd, Table.find?_eq_none_iff.mp new d hd⟩, rfl⟩
  · rintro ⟨d, rfl | ⟨hd, -⟩, rfl⟩
    · exact .inl rfl
    · exact .inr ⟨⟨d, hd, rfl⟩, h.email_ne free hd⟩

/-- A record is replaced by one with the same identity and address. -/
theorem replace (h : s.Indexed) (found : s.customers.find? c.id = some c)
    (same : c'.owner = c.owner) : (s.replace c').Indexed := by
  have here : c'.id = c.id := congrArg Owner.customer same
  intro o
  simp only [Store.replace, Table.mem_put, h o, here]
  constructor
  · rintro ⟨d, hd, rfl⟩
    by_cases own : d.id = c.id
    · rw [Table.eq_of_key_eq hd (Table.mem_of_find? found) own]
      exact ⟨c', .inl rfl, same⟩
    · exact ⟨d, .inr ⟨hd, own⟩, rfl⟩
  · rintro ⟨d, rfl | ⟨hd, -⟩, rfl⟩
    · exact ⟨c, Table.mem_of_find? found, same.symm⟩
    · exact ⟨d, hd, rfl⟩

/-- A record is replaced by one with a free address. -/
theorem readdress (h : s.Indexed) (found : s.customers.find? c.id = some c) (here : c'.id = c.id)
    (free : s.emails.contains c'.email = false) : (s.readdress c c').Indexed := by
  have hc : c ∈ s.customers.rows := Table.mem_of_find? found
  intro o
  simp only [Store.readdress, Table.rows_filter, List.mem_filter, Table.mem_put, h o, bne_iff_ne,
    here]
  -- the entry that is given back is that of the customer who moves, so all others stay
  constructor
  · rintro ⟨rfl | ⟨⟨d, hd, rfl⟩, -⟩, other⟩
    · exact ⟨c', .inl rfl, rfl⟩
    · refine ⟨d, .inr ⟨hd, fun own ↦ other ?_⟩, rfl⟩
      rw [Table.eq_of_key_eq hd hc own]
  · rintro ⟨d, rfl | ⟨hd, own⟩, rfl⟩
    · refine ⟨.inl rfl, fun same ↦ h.email_ne free hc ?_⟩
      exact (congrArg Owner.email same).symm
    · refine ⟨.inr ⟨⟨d, hd, rfl⟩, h.email_ne free hd⟩, fun same ↦ own ?_⟩
      exact congrArg Owner.customer same

theorem dismiss (h : s.Indexed) (found : s.customers.find? c.id = some c) :
    (s.dismiss c).Indexed := by
  have hc : c ∈ s.customers.rows := Table.mem_of_find? found
  intro o
  simp only [Store.dismiss, Table.rows_filter, List.mem_filter, Table.mem_erase, h o, bne_iff_ne]
  constructor
  · rintro ⟨⟨d, hd, rfl⟩, other⟩
    refine ⟨d, ⟨hd, fun own ↦ other ?_⟩, rfl⟩
    rw [Table.eq_of_key_eq hd hc own]
  · rintro ⟨d, ⟨hd, own⟩, rfl⟩
    refine ⟨⟨d, hd, rfl⟩, fun same ↦ own ?_⟩
    exact congrArg Owner.customer same

end Indexed

/-! ## What happens to customers -/

/-- From one state to another, customers get no identities but those of a list; and if these are new
and different, an exact index stays exact. -/
structure Registers (given : List Id) (s s' : Store) : Prop where
  indexed : s.Indexed → given.Nodup → (∀ id ∈ given, s.customers.find? id = none) → s'.Indexed
  unknown : ∀ id, s.customers.find? id = none → id ∉ given → s'.customers.find? id = none

namespace Registers

variable {given given' : List Id} {s'' : Store}

theorem refl (given : List Id) (s : Store) : Registers given s s := ⟨fun h _ _ ↦ h, fun _ h _ ↦ h⟩

theorem congr (h : Registers given s s') (customers : s''.customers = s'.customers)
    (emails : s''.emails = s'.emails) : Registers given s s'' where
  indexed exact distinct new := (h.indexed exact distinct new).congr customers emails
  unknown id new other := customers ▸ h.unknown id new other

theorem of_sameRecords (given : List Id) (h : s.SameRecords s') : Registers given s s' :=
  (refl given s).congr h.customers h.emails

theorem trans (h : Registers given s s') (h' : Registers given' s' s'') :
    Registers (given ++ given') s s'' where
  indexed exact distinct new := by
    obtain ⟨first, second, apart⟩ := List.nodup_append.mp distinct
    refine h'.indexed (h.indexed exact first fun id hid ↦ ?_) second fun id hid ↦ ?_
    · exact new id (List.mem_append_left _ hid)
    · exact h.unknown id (new id (List.mem_append_right _ hid)) fun before ↦ apart id before id hid rfl
  unknown id new other := by
    rw [List.mem_append, not_or] at other
    exact h'.unknown id (h.unknown id new other.1) other.2

theorem enrol (free : s.emails.contains c.email = false) : Registers [c.id] s (s.enrol c) where
  indexed exact _ new := exact.enrol free (new c.id List.mem_cons_self)
  unknown id new other := by
    have apart : c.id ≠ id := fun same ↦ other (same ▸ List.mem_cons_self)
    rw [Store.enrol, Table.find?_put, if_neg apart, new]

/-- A record that is put in place of another gives no identity. -/
theorem find?_put_eq_none (found : s.customers.find? c.id = some c) (here : c'.id = c.id) (id : Id)
    (new : s.customers.find? id = none) : (s.customers.put c').find? id = none := by
  rw [Table.find?_put, if_neg, new]
  rintro rfl
  rw [here, found] at new
  cases new

theorem replace (found : s.customers.find? c.id = some c) (same : c'.owner = c.owner) :
    Registers [] s (s.replace c') where
  indexed exact _ _ := exact.replace found same
  unknown id new _ := find?_put_eq_none found (congrArg Owner.customer same) id new

theorem readdress (found : s.customers.find? c.id = some c) (here : c'.id = c.id)
    (free : s.emails.contains c'.email = false) : Registers [] s (s.readdress c c') where
  indexed exact _ _ := exact.readdress found here free
  unknown id new _ := find?_put_eq_none found here id new

theorem dismiss (found : s.customers.find? c.id = some c) : Registers [] s (s.dismiss c) where
  indexed exact _ _ := exact.dismiss found
  unknown id new _ := by
    rw [Store.dismiss, Table.find?_erase, new, ite_self]

end Registers

/-- The record that is found under an identity has it. -/
theorem find?_self {id : Id} (found : s.customers.find? id = some c) :
    s.customers.find? c.id = some c := by
  rw [Table.key_of_find? found, found]

/-! ## Changes of addresses -/

section Changes

variable {r : Customer.Change} {now : Calendar.Instant}

theorem owner_apply_of_none (h : r.newEmail? c = none) : (r.apply c now).owner = c.owner := by
  simp [Customer.owner, Customer.Change.apply, h]

theorem email_apply_of_some {email : String} (h : r.newEmail? c = some email) :
    (r.apply c now).email = email := by
  simp [Customer.Change.apply, h]

theorem newEmail?_eq_some_iff {email : String} :
    r.newEmail? c = some email ↔
      r.email.map Customer.normalizeEmail = some email ∧ email ≠ c.email := by
  simp [Customer.Change.newEmail?, Option.filter_eq_some_iff]

theorem owner_withoutOrder (c : Customer) (amount : Float) (now : Calendar.Instant) :
    (withoutOrder c amount now).owner = c.owner := rfl

end Changes

/-! ## Commands and histories -/

/-- The identities that a command gives to customers. -/
def enrolled (stamp : Stamp) : Store.Command → List Id
  | .createCustomer _ => [stamp.id]
  | _ => []

/-- A command that concerns customers and orders gives only the identity of the customer to be made
and keeps an exact index exact. -/
theorem registers_obey (s : Store) (stamp : Stamp) (command : Store.Command) :
    Registers (enrolled stamp command) s (s.obey stamp command) := by
  cases command with
  | createCustomer r =>
    simp only [obey]
    rcases s.createCustomer_cases stamp r with ⟨f, h⟩ | ⟨free, h⟩ <;> rw [h]
    · exact .refl _ s
    · have free' : s.emails.contains (r.customer stamp.id stamp.now).email = false := free
      exact .enrol free'
  | updateCustomer id r =>
    simp only [obey]
    rcases s.updateCustomer_cases stamp id r with
      ⟨f, h⟩ | ⟨c, found, ⟨stays, h⟩ | ⟨email, moves, free, h⟩⟩ <;> rw [h]
    · exact .refl _ s
    · exact .replace (find?_self found) (owner_apply_of_none stays)
    · exact .readdress (find?_self found) rfl (by rwa [email_apply_of_some moves])
  | deleteCustomer id =>
    simp only [obey]
    rcases s.deleteCustomer_cases id with ⟨f, h⟩ | ⟨c, found, h⟩ <;> rw [h]
    · exact .refl _ s
    · exact .dismiss (find?_self found)
  | createOrder r =>
    simp only [obey]
    rcases s.createOrder_cases stamp r with
      ⟨f, h⟩ | ⟨items, c, c', -, found, counted, h⟩ <;> rw [h]
    · exact .refl _ s
    · have id_eq := id_of_withOrder? counted
      have same := owner_of_withOrder? counted
      exact (Registers.replace (id_eq ▸ find?_self found) same).congr rfl rfl
  | moveOrder id status =>
    simp only [obey]
    rcases s.updateOrderStatus_cases stamp id status with ⟨f, h⟩ | ⟨o, -, h⟩ <;> rw [h]
    · exact .refl _ s
    · exact (Registers.refl _ s).congr rfl rfl
  | deleteOrder id =>
    simp only [obey]
    rcases s.deleteOrder_cases stamp id with
      ⟨f, h⟩ | ⟨o, -, ⟨-, h⟩ | ⟨c, found, h⟩⟩ <;> rw [h]
    · exact .refl _ s
    · exact (Registers.refl _ s).congr rfl rfl
    · exact (Registers.replace (find?_self found) (owner_withoutOrder ..)).congr rfl rfl

theorem registers_insert (s : Store) (c : Customer) :
    Registers [c.id] s (s.insertCustomer c).2 := by
  rcases s.insertCustomer_cases c with ⟨-, h⟩ | ⟨free, h⟩ <;> rw [h]
  · exact .refl _ s
  · exact .enrol free

end Outreach.Store

namespace Outreach.Demo

open Store (Registers)

variable (now : Calendar.Instant) (admin : User) (ids : Nat → Id) (chance : Chance)

/-- Customers for demonstration are added one after the other. -/
theorem registers_addCustomers (n : Nat) (names : List String) (s : Store) :
    Registers ((List.range' n names.length).map ids) s (addCustomers now ids chance n names s).2 := by
  induction names generalizing n s with
  | nil => exact .refl _ s
  | cons name names ih =>
    let c := customer name (ids n) now fun k ↦ chance (64 * n + k)
    exact (s.registers_insert c).trans (ih (n + 1) (s.insertCustomer c).2)

/-- Filling the store gives identities to the customers only. -/
theorem registers_seed (s : Store) :
    Registers ((List.range' 0 names.length).map ids) s (seed s now admin ids chance).2 := by
  have customers := registers_addCustomers now ids chance 0 names s
  unfold seed
  revert customers
  generalize addCustomers now ids chance 0 names s = added
  intro customers
  refine customers.congr ?_ ?_
  · exact (sameRecords_addCampaigns ..).customers.trans (addOrders_frame ..).1
  · exact (sameRecords_addCampaigns ..).emails.trans (addOrders_frame ..).2.1

end Outreach.Demo
