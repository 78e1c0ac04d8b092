import Outreach.Proofs.Store.Emails

/-!
# Addresses for mail in a history

In every state that a history leads to, the index of addresses is exact. This alone decides who gets
which address: a request that passes its checks is refused as a conflict if and only if the address
that it asks for belongs to another customer, and what a change or a removal gives up is free at
once.
-/

namespace Outreach

/-! ## Conflicts and free addresses -/

/-- The operation is refused as a conflict. -/
def Outcome.Conflicts {σ α : Type} (o : Outcome σ α) : Prop :=
  ∃ f, o.1 = .error f ∧ f.kind? = some .conflict

namespace Store

variable {s : Store} {stamp : Stamp} {id : Id} {c : Customer}

def Holds (s : Store) (email : String) : Prop := ∃ c ∈ s.customers.rows, c.email = email

/-- Every request that passes its checks gets the address, be it for a new customer or for one that
is there. -/
structure Free (s : Store) (email : String) : Prop where
  create : ∀ stamp r, r.check = .ok () → Customer.normalizeEmail r.email = email →
    ∃ c, (s.createCustomer stamp r).1 = .ok c ∧ c.email = email
  update : ∀ stamp id r, r.check = .ok () → s.customers.contains id = true →
    r.email.map Customer.normalizeEmail = some email →
    ∃ c, (s.updateCustomer stamp id r).1 = .ok c ∧ c.email = email

/-- What holds of addresses for mail. -/
structure AddressRules (s : Store) : Prop where
  /-- The index has one entry for each customer, the stored address with the identity, and no
  other. -/
  index : s.emails.rows.Perm (s.customers.rows.map Customer.owner)
  unique : ∀ c ∈ s.customers.rows, ∀ c' ∈ s.customers.rows, c.email = c'.email → c = c'
  /-- A customer is not made exactly if a customer has the address. -/
  create : ∀ stamp r, r.check = .ok () →
    ((s.createCustomer stamp r).Conflicts ↔ s.Holds (Customer.normalizeEmail r.email))
  /-- A customer is not changed exactly if another customer has the new address. -/
  update : ∀ stamp id r, r.check = .ok () → s.customers.contains id = true →
    ((s.updateCustomer stamp id r).Conflicts ↔
      ∃ email, r.email = some email ∧
        ∃ d ∈ s.customers.rows, d.id ≠ id ∧ d.email = Customer.normalizeEmail email)
  /-- An address that is given up by a change is free. -/
  freed_by_update : ∀ stamp id r c c', s.customers.find? id = some c →
    (s.updateCustomer stamp id r).1 = .ok c' → c'.email ≠ c.email →
    (s.updateCustomer stamp id r).2.Free c.email
  /-- The address of a customer that is removed is free. -/
  freed_by_delete : ∀ id c, s.customers.find? id = some c →
    (s.deleteCustomer id).1 = .ok () ∧ (s.deleteCustomer id).2.Free c.email

theorem conflicts_emailTaken (s : Store) {α : Type} :
    Outcome.Conflicts ((.error .emailTaken, s) : Outcome Store α) := ⟨_, rfl, rfl⟩

theorem not_conflicts_ok (s : Store) {α : Type} (a : α) :
    ¬Outcome.Conflicts ((.ok a, s) : Outcome Store α) := by
  rintro ⟨f, h, -⟩
  cases h

namespace Indexed

variable (h : s.Indexed)
include h

theorem contains_eq_false_iff {email : String} :
    s.emails.contains email = false ↔ ¬s.Holds email := by
  rw [← Bool.not_eq_true, h.contains_iff]
  rfl

theorem create_conflicts_iff {r : Customer.New} (valid : r.check = .ok ()) :
    (s.createCustomer stamp r).Conflicts ↔ s.Holds (Customer.normalizeEmail r.email) := by
  cases taken : s.emails.contains (Customer.normalizeEmail r.email) with
  | true =>
    rw [s.createCustomer_of_taken stamp valid taken]
    exact iff_of_true (conflicts_emailTaken s) (h.contains_iff.mp taken)
  | false =>
    rw [s.createCustomer_of_free stamp valid taken]
    exact iff_of_false (not_conflicts_ok _ _) (h.contains_eq_false_iff.mp taken)

/-- Another customer has the address that a change asks for if the change gives a new address and a
customer has it. -/
theorem held_by_other_iff (found : s.customers.find? id = some c) (r : Customer.Change) :
    (∃ email, r.email = some email ∧
      ∃ d ∈ s.customers.rows, d.id ≠ id ∧ d.email = Customer.normalizeEmail email) ↔
    ∃ email, r.newEmail? c = some email ∧ s.Holds email := by
  have hc : c ∈ s.customers.rows := Table.mem_of_find? found
  have here : c.id = id := Table.key_of_find? found
  simp only [newEmail?_eq_some_iff, Option.map_eq_some_iff]
  constructor
  · rintro ⟨email, asked, d, hd, other, held⟩
    refine ⟨_, ⟨⟨email, asked, rfl⟩, fun own ↦ other ?_⟩, d, hd, held⟩
    rw [h.eq_of_email_eq hd hc (held.trans own), here]
  · rintro ⟨_, ⟨⟨email, asked, rfl⟩, moves⟩, d, hd, held⟩
    refine ⟨email, asked, d, hd, fun own ↦ moves ?_, held⟩
    rw [← held, Table.eq_of_key_eq hd hc (own.trans here.symm)]

theorem update_conflicts_iff {r : Customer.Change} (valid : r.check = .ok ())
    (known : s.customers.contains id = true) :
    (s.updateCustomer stamp id r).Conflicts ↔
      ∃ email, r.email = some email ∧
        ∃ d ∈ s.customers.rows, d.id ≠ id ∧ d.email = Customer.normalizeEmail email := by
  obtain ⟨c, found⟩ := Option.isSome_iff_exists.mp known
  rw [h.held_by_other_iff found]
  cases moves : r.newEmail? c with
  | none =>
    rw [s.updateCustomer_of_stays stamp id valid found moves]
    exact iff_of_false (not_conflicts_ok _ _) (by simp)
  | some email =>
    simp only [Option.some.injEq, exists_eq_left']
    cases taken : s.emails.contains email with
    | true =>
      rw [s.updateCustomer_of_taken stamp id valid found moves taken]
      exact iff_of_true (conflicts_emailTaken s) (h.contains_iff.mp taken)
    | false =>
      rw [s.updateCustomer_of_free stamp id valid found moves taken]
      exact iff_of_false (not_conflicts_ok _ _) (h.contains_eq_false_iff.mp taken)

/-- What no customer has is free. -/
theorem free_of_not_holds {email : String} (unheld : ¬s.Holds email) : s.Free email where
  create stamp r valid asked := by
    subst asked
    have free := h.contains_eq_false_iff.mpr unheld
    exact ⟨_, congrArg Prod.fst (s.createCustomer_of_free stamp valid free), rfl⟩
  update stamp id r valid known asked := by
    obtain ⟨c, found⟩ := Option.isSome_iff_exists.mp known
    have free := h.contains_eq_false_iff.mpr unheld
    have moves : r.newEmail? c = some email :=
      newEmail?_eq_some_iff.mpr ⟨asked, fun own ↦ unheld ⟨c, Table.mem_of_find? found, own.symm⟩⟩
    have changed := s.updateCustomer_of_free stamp id valid found moves free
    exact ⟨_, congrArg Prod.fst changed, email_apply_of_some moves⟩

/-- The address of a customer who gets another one belongs to nobody then. -/
theorem not_holds_readdress {c' : Customer} (found : s.customers.find? id = some c)
    (here : c'.id = c.id) (other : c'.email ≠ c.email) : ¬(s.readdress c c').Holds c.email := by
  rintro ⟨d, hd, held⟩
  simp only [Store.readdress, Table.mem_put, here] at hd
  rcases hd with rfl | ⟨hd, apart⟩
  · exact other held
  · exact apart (congrArg Customer.id (h.eq_of_email_eq hd (Table.mem_of_find? found) held))

/-- The address of a customer who is removed belongs to nobody then. -/
theorem not_holds_dismiss (found : s.customers.find? id = some c) :
    ¬(s.dismiss c).Holds c.email := by
  rintro ⟨d, hd, held⟩
  simp only [Store.dismiss, Table.mem_erase] at hd
  exact hd.2 (congrArg Customer.id (h.eq_of_email_eq hd.1 (Table.mem_of_find? found) held))

theorem addressRules : s.AddressRules where
  index := h.perm
  unique _ hc _ hc' same := h.eq_of_email_eq hc hc' same
  create _ _ valid := h.create_conflicts_iff valid
  update _ _ _ valid known := h.update_conflicts_iff valid known
  freed_by_update stamp id r c c' found changed other := by
    rcases s.updateCustomer_cases stamp id r with
      ⟨f, e⟩ | ⟨d, found', ⟨stays, e⟩ | ⟨email, moves, free, e⟩⟩
    · rw [e] at changed
      cases changed
    · rw [found] at found'
      cases found'
      rw [e] at changed
      cases changed
      -- the address is kept, so nothing was given up
      have same : (r.apply c stamp.now).owner = c.owner := owner_apply_of_none stays
      exact absurd (congrArg Owner.email same) other
    · rw [found] at found'
      cases found'
      rw [e] at changed ⊢
      cases changed
      have unclaimed : s.emails.contains (r.apply c stamp.now).email = false := by
        rwa [email_apply_of_some moves]
      have indexed : (s.readdress c (r.apply c stamp.now)).Indexed :=
        h.readdress (find?_self found) rfl unclaimed
      exact indexed.free_of_not_holds (h.not_holds_readdress found rfl other)
  freed_by_delete id c found := by
    rcases s.deleteCustomer_cases id with ⟨f, e⟩ | ⟨d, found', e⟩
    · simp [deleteCustomer, found] at e
    · rw [found] at found'
      cases found'
      rw [e]
      exact ⟨rfl, (h.dismiss (find?_self found)).free_of_not_holds (h.not_holds_dismiss found)⟩

end Indexed

end Store

/-! ## Histories -/

namespace Crm

open Store (Registers)

/-- The identities that a deed gives to customers. -/
def Deed.enrolled : Deed → List Id
  | .event stamp (.command (.records c)) => Store.enrolled stamp c
  | .event _ _ => []
  | .insert c => [c.id]
  | .fill _ _ ids _ => (List.range' 0 Demo.names.length).map ids

variable {settings : Settings.Campaigns}

theorem registers_act (w : Crm) (d : Deed) :
    Registers d.enrolled w.store (w.act settings d).store := by
  cases d with
  | event stamp e =>
    cases e with
    | command c =>
      cases c with
      | records c => exact w.store.registers_obey stamp c
      | _ => exact .of_sameRecords _ (w.sameRecords_obey stamp _ (by simp))
    | timer t => exact .of_sameRecords _ (w.sameRecords_goOff stamp t)
  | insert c => exact w.store.registers_insert c
  | fill now admin ids chance =>
    rw [Deed.enrolled, store_act_fill]
    exact Demo.registers_seed now admin ids chance w.store

/-- A history gives only the identities of its deeds and keeps an exact index exact. -/
theorem registers_history (w : Crm) (deeds : List Deed) :
    Registers (deeds.flatMap Deed.enrolled) w.store (w.history settings deeds).store := by
  induction deeds generalizing w with
  | nil => exact .refl _ _
  | cons d deeds ih =>
    rw [List.flatMap_cons, history_cons]
    exact (w.registers_act d).trans (ih _)

/-- In every state that a history leads to from an empty store, if no two customers get the same
identity, the index of addresses is exact and decides who gets which address. -/
theorem history_addressRules (settings : Settings.Campaigns) (deeds : List Deed)
    (fresh : (deeds.flatMap Deed.enrolled).Nodup) :
    (Crm.empty.history settings deeds).store.AddressRules := by
  have registers : Registers (deeds.flatMap Deed.enrolled) Store.empty
      (Crm.empty.history settings deeds).store := registers_history .empty deeds
  exact (registers.indexed .empty fresh fun _ _ ↦ rfl).addressRules

def twoCustomers : List Deed :=
  [.event (tick 1) (.command (.records (.createCustomer (newcomer "Ann" "Ann@xeno.in")))),
    .event (tick 2) (.command (.records (.createCustomer (newcomer "Bob" "bob@xeno.in"))))]

theorem history_addressRules_twoCustomers :
    (twoCustomers.flatMap Deed.enrolled).Nodup ∧
      let s := (Crm.empty.history .usual twoCustomers).store
      (s.createCustomer (tick 3) (newcomer "Bobby" " BOB@xeno.in")).Conflicts ∧
        (s.deleteCustomer ⟨1⟩).2.Free "ann@xeno.in" := by
  have fresh : (twoCustomers.flatMap Deed.enrolled).Nodup := by decide
  have rules := history_addressRules .usual twoCustomers fresh
  have held : (Crm.empty.history .usual twoCustomers).store.Holds "bob@xeno.in" := by
    unfold Store.Holds
    decide
  have found : ((Crm.empty.history .usual twoCustomers).store.customers.find? ⟨1⟩).map (·.email) =
      some "ann@xeno.in" := by decide
  obtain ⟨c, hc, email⟩ := Option.map_eq_some_iff.mp found
  refine ⟨fresh, (rules.create _ _ (by decide)).mpr held, ?_⟩
  rw [← email]
  exact (rules.freed_by_delete ⟨1⟩ c hc).2

end Crm

end Outreach
