import Outreach.Proofs.Store.Addresses
import Outreach.Proofs.Store.Records
import Outreach.Proofs.Text.Letters

/-!
# Addresses that are alike

Customers are told apart by the normal forms of their addresses for mail. Texts that differ only by
white space around them and by the case of the letters from A to Z have one normal form, so two of
them are never the addresses of two customers.
-/

namespace Outreach

open Text

namespace Customer

variable {e e' : String}

/-- The normal form does not tell texts that are alike. -/
theorem normalizeEmail_eq_of_alike (h : Alike e e') : normalizeEmail e = normalizeEmail e' := by
  rw [← String.toList_inj, toList_normalizeEmail, toList_normalizeEmail, ← lowerChars_map_toLower,
    alike_iff.mp h, lowerChars_map_toLower]

/-- The check lets the normal form pass exactly if it lets the text pass. -/
theorem checkEmail_normalizeEmail (e : String) : checkEmail (normalizeEmail e) = checkEmail e := by
  rw [checkEmail, isEmail_normalizeEmail, checkEmail]

/-- The text is a way to write the address of the customer. -/
def HasAddress (c : Customer) (e : String) : Prop := c.email = normalizeEmail e

end Customer

namespace Store

variable {s : Store} {stamp : Stamp} {c : Customer}

/-- What holds of texts as addresses, however they are written. -/
structure LikenessRules (s : Store) : Prop where
  /-- A customer who is made has the address that is asked for. -/
  made : ∀ stamp r c, (s.createCustomer stamp r).1 = .ok c → c.HasAddress r.email
  /-- A customer who gets a new address has the one that is asked for. -/
  changed : ∀ stamp id r c e, (s.updateCustomer stamp id r).1 = .ok c → r.email = some e →
    c.HasAddress e
  /-- Texts that are alike are not the addresses of two customers. -/
  one : ∀ c ∈ s.customers.rows, ∀ c' ∈ s.customers.rows, ∀ e e', Alike e e' →
    c.HasAddress e → c'.HasAddress e' → c = c'
  /-- Nobody else is made with an address that is alike. -/
  refused : ∀ stamp r, r.check = .ok () → ∀ c ∈ s.customers.rows, ∀ e, c.HasAddress e →
    Alike e r.email → (s.createCustomer stamp r).Conflicts

theorem hasAddress_of_made {r : Customer.New} (made : (s.createCustomer stamp r).1 = .ok c) :
    c.HasAddress r.email := by
  rcases s.createCustomer_cases stamp r with ⟨f, h⟩ | ⟨-, h⟩ <;> rw [h] at made <;> cases made
  rfl

/-- A given address is the one of the record after the change, be it new or not. -/
theorem hasAddress_apply {r : Customer.Change} {e : String} (given : r.email = some e)
    (now : Calendar.Instant) : (r.apply c now).HasAddress e := by
  have asked : r.email.map Customer.normalizeEmail = some (Customer.normalizeEmail e) := by
    rw [given, Option.map_some]
  unfold Customer.HasAddress
  by_cases same : Customer.normalizeEmail e = c.email
  · have stays : r.newEmail? c = none := by simp [Customer.Change.newEmail?, given, same]
    have kept : (r.apply c now).owner = c.owner := owner_apply_of_none stays
    exact (congrArg Owner.email kept).trans same.symm
  · exact email_apply_of_some (newEmail?_eq_some_iff.mpr ⟨asked, same⟩)

theorem hasAddress_of_changed {id : Id} {r : Customer.Change} {e : String}
    (changed : (s.updateCustomer stamp id r).1 = .ok c) (given : r.email = some e) :
    c.HasAddress e := by
  rcases s.updateCustomer_cases stamp id r with ⟨f, h⟩ | ⟨d, -, ⟨-, h⟩ | ⟨email, -, -, h⟩⟩ <;>
    rw [h] at changed <;> cases changed
  · exact hasAddress_apply given _
  · exact hasAddress_apply given _

/-- The rules for addresses, in terms of the texts by which they are given. -/
theorem AddressRules.likenessRules (rules : s.AddressRules) : s.LikenessRules where
  made _ _ _ := hasAddress_of_made
  changed _ _ _ _ _ := hasAddress_of_changed
  one c hc c' hc' e e' alike has has' := by
    refine rules.unique c hc c' hc' ?_
    calc c.email = Customer.normalizeEmail e := has
      _ = Customer.normalizeEmail e' := Customer.normalizeEmail_eq_of_alike alike
      _ = c'.email := has'.symm
  refused stamp r valid c hc e has alike := by
    refine (rules.create stamp r valid).mpr ⟨c, hc, ?_⟩
    exact has.trans (Customer.normalizeEmail_eq_of_alike alike)

end Store

namespace Crm

/-- The normal form of an address is its own normal form, and the check lets it pass exactly if it lets
the address pass. In every state that a history leads to from an empty store, if no two customers get
the same identity, two texts that are alike are not the addresses of two customers, and a request with
an address like that of a customer is refused as a conflict. -/
theorem history_likenessRules (settings : Settings.Campaigns) (deeds : List Deed)
    (fresh : (deeds.flatMap Deed.enrolled).Nodup) :
    (∀ e, Customer.normalizeEmail (Customer.normalizeEmail e) = Customer.normalizeEmail e ∧
      (Customer.checkEmail (Customer.normalizeEmail e) = .ok () ↔ Customer.checkEmail e = .ok ())) ∧
    (empty.history settings deeds).store.LikenessRules := by
  constructor
  · intro e
    rw [Customer.checkEmail_normalizeEmail]
    exact ⟨Customer.normalizeEmail_normalizeEmail e, Iff.rfl⟩
  · have registers : Store.Registers (deeds.flatMap Deed.enrolled) Store.empty
        (empty.history settings deeds).store := registers_history .empty deeds
    exact (registers.indexed .empty fresh fun _ _ ↦ rfl).addressRules.likenessRules

/-- A customer whose address was given with a capital sigma, which ends a word in it. -/
def strayAddress : List Deed :=
  [.event (tick 1) (.command (.records (.createCustomer (newcomer "Nikos" " NIKOΣ@Xeno.in"))))]

/-- The same address with other white space and in other letters is refused. -/
theorem history_likenessRules_strayAddress :
    (strayAddress.flatMap Deed.enrolled).Nodup ∧
      (newcomer "Niki" "nikoΣ@XENO.in\t").check = .ok () ∧
      Alike " NIKOΣ@Xeno.in" "nikoΣ@XENO.in\t" ∧
      ((empty.history .usual strayAddress).store.createCustomer (tick 2)
        (newcomer "Niki" "nikoΣ@XENO.in\t")).Conflicts := by
  have fresh : (strayAddress.flatMap Deed.enrolled).Nodup := by decide
  have valid : (newcomer "Niki" "nikoΣ@XENO.in\t").check = .ok () := by decide +kernel
  have alike : Alike " NIKOΣ@Xeno.in" "nikoΣ@XENO.in\t" := by decide +kernel
  obtain ⟨-, rules⟩ := history_likenessRules .usual strayAddress fresh
  have stored : ((empty.history .usual strayAddress).store.customers.find? ⟨1⟩).map (·.email) =
      some (Customer.normalizeEmail " NIKOΣ@Xeno.in") := by decide +kernel
  obtain ⟨c, found, has⟩ := Option.map_eq_some_iff.mp stored
  exact ⟨fresh, valid, alike, rules.refused _ _ valid c (Table.mem_of_find? found) _ has alike⟩

end Crm

end Outreach
