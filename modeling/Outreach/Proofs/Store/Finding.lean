import Outreach.Proofs.Store.Search
import Outreach.Proofs.Text.Parts

/-!
# Finding what stands in a record

A rule that looks for a text, and a search, put the text into small letters by itself, and what they
look in as a whole. Nevertheless they find a text wherever it stands as it is, unless a capital sigma
at one of its ends becomes another letter there: the first five letters of the word ΘΑΛΑΣΣΑ end in a
final sigma by themselves, which the word has not at that place.
-/

namespace Outreach

open Paging Text

/-- What stands in a text without gaps is mentioned by it. -/
theorem Rule.Field.Content.mentions_of_standsIn {content : Content} {v : Value} {t : String}
    (shown : t ∈ content.texts) (stands : StandsIn v.asText.toList t.toList) :
    content.Mentions v := by
  refine ⟨t, shown, ?_⟩
  rw [toList_lower, toList_lower]
  exact stands.lowerChars

namespace Store

/-- The text stands in the name, the address for mail or the telephone number of a customer as it is,
and in the name and the number so that small letters make no difference. -/
def Bears (c : Customer) (text : String) : Prop :=
  StandsIn text.toList c.name.toList ∨ text.toList <:+: c.email.toList ∨
    ∃ phone, c.phone = some phone ∧ StandsIn text.toList phone.toList

variable {c : Customer} {text : String}

/-- An address in its normal form is in small letters, and all of its parts are. -/
theorem shows_of_bears (normal : Customer.normalizeEmail c.email = c.email) (h : Bears c text) :
    Shows c (lower text) := by
  rcases h with name | email | ⟨phone, given, stands⟩
  · refine .inl ?_
    rw [toList_lower, toList_lower]
    exact name.lowerChars
  · have small : ∀ d ∈ c.email.toList, IsSmall d := by
      rw [← Customer.lower_of_normal normal, toList_lower]
      exact (lowers_lowerChars _).small
    have same : lowerChars text.toList = text.toList :=
      lowerFrom_eq_self [] fun d hd ↦ small d (email.subset hd)
    refine .inr (.inl ?_)
    rw [toList_lower, same]
    exact email
  · refine .inr (.inr ⟨phone, given, ?_⟩)
    rw [toList_lower, toList_lower]
    exact stands.lowerChars

end Store

/-- A rule that looks for a text in a field holds of every customer in whose field the text stands, and
the rule that does not want the text there does not, if the capital sigmas of the text end words at
that place as they do in the text by itself. And in every state that a history leads to in which
customers are added as they are only with addresses in their normal form, searching for a text without
white space around it, among all customers or those of a status, finds everyone in whose name or
telephone number the text stands in this way, or in whose address it stands at all. -/
theorem Crm.occurrences_found (settings : Settings.Campaigns) (deeds : List Deed)
    (normal : ∀ c, .insert c ∈ deeds → Customer.normalizeEmail c.email = c.email) :
    (∀ (r : Rule) (c : Customer) (content : Rule.Field.Content),
      (Rule.Field.ofName r.field).read? c = some content →
      ∀ t ∈ content.texts, StandsIn r.value.asText.toList t.toList →
        { r with operator := .contains }.Holds c ∧ ¬{ r with operator := .notContains }.Holds c) ∧
    ∀ c ∈ (empty.history settings deeds).store.customers.rows, ∀ text : String,
      Trimmed text.toList → Store.Bears c text →
      ∀ status, (∀ st, status = some st → c.status = st) → ∀ limit?, ValidLimit limit? →
        ∃ found, (empty.history settings deeds).store.searched text status limit? = .ok found ∧
          c ∈ found := by
  constructor
  · intro r c content read t shown stands
    have mentioned := Rule.Field.Content.mentions_of_standsIn shown stands
    rw [Rule.holds_operator_iff .contains read rfl, Rule.holds_operator_iff .notContains read rfl]
    exact ⟨mentioned, not_not_intro mentioned⟩
  · intro c stored text trimmed bears status active limit? valid
    have normal' : Customer.normalizeEmail c.email = c.email := by
      refine forall_customers_history Customer.lasting_normal ?_ normal ?_ c stored
      · intro name hname id now chance
        exact Demo.normal_emailOf (Demo.head?_name hname)
      · intro c hc
        cases hc
    obtain ⟨found, pages, mem, -⟩ :=
      ((empty.history settings deeds).store.listing_customers (some text) status).complete
        limit? valid
    refine ⟨found, pages, (mem c).mpr ⟨stored, active, ?_⟩⟩
    rintro _ ⟨⟩ -
    rw [trimmed.trim_eq]
    exact Store.shows_of_bears normal' bears

/-- A customer with a name that has two sigmas within. -/
def thalassa : Customer :=
  ⟨⟨1⟩, "ΘΑΛΑΣΣΑ", "thalassa@example.com", none, 0.0, 0, none, .epoch, .active, ["ΘΑΛΑΣΣΑ"], .empty,
    .usual, .epoch, .epoch⟩

theorem normal_thalassa :
    ∀ c, .insert c ∈ [Crm.Deed.insert thalassa] → Customer.normalizeEmail c.email = c.email := by
  have normal : Customer.normalizeEmail thalassa.email = thalassa.email := by decide +kernel
  simpa using normal

/-- The last five letters of the name are found. -/
theorem Crm.occurrences_found_thalassa :
    (∀ c, .insert c ∈ [Deed.insert thalassa] → Customer.normalizeEmail c.email = c.email) ∧
      StandsIn "ΛΑΣΣΑ".toList thalassa.name.toList ∧ Trimmed "ΛΑΣΣΑ".toList ∧ ValidLimit none ∧
      (Rule.mentions "name" "ΛΑΣΣΑ").Holds thalassa ∧ (Rule.mentions "tags" "ΛΑΣΣΑ").Holds thalassa ∧
      ∃ found, (empty.history .usual [.insert thalassa]).store.searched "ΛΑΣΣΑ" (some .active) none =
        .ok found ∧ thalassa ∈ found := by
  have stands : StandsIn "ΛΑΣΣΑ".toList thalassa.name.toList :=
    standsIn_of_infix (by decide +kernel) (by decide +kernel) (by decide)
  have trimmed : Trimmed "ΛΑΣΣΑ".toList := by decide
  have valid : ValidLimit none := by simp [ValidLimit]
  have stored : thalassa ∈ (empty.history .usual [.insert thalassa]).store.customers.rows :=
    List.mem_singleton.mpr rfl
  have active : ∀ st, some Customer.Status.active = some st → thalassa.status = st := by
    rintro _ ⟨⟩
    rfl
  obtain ⟨rules, searches⟩ := occurrences_found .usual [.insert thalassa] normal_thalassa
  have name := rules (Rule.mentions "name" "ΛΑΣΣΑ") thalassa _ rfl _ List.mem_cons_self stands
  have tags := rules (Rule.mentions "tags" "ΛΑΣΣΑ") thalassa _ rfl _ List.mem_cons_self stands
  exact ⟨normal_thalassa, stands, trimmed, valid, name.1, tags.1,
    searches thalassa stored "ΛΑΣΣΑ" trimmed (.inl stands) _ active none valid⟩

/-- The first five letters of the name are not found, neither by rules nor by a search. -/
theorem Crm.occurrence_missed :
    "ΘΑΛΑΣ".toList <:+: thalassa.name.toList ∧ thalassa.name ∈ thalassa.tags ∧
      Trimmed "ΘΑΛΑΣ".toList ∧
      (∀ field ∈ ["name", "tags"], ¬(Rule.mentions field "ΘΑΛΑΣ").Holds thalassa ∧
        { Rule.mentions field "ΘΑΛΑΣ" with operator := .notContains }.Holds thalassa) ∧
      thalassa ∈ (empty.history .usual [.insert thalassa]).store.customers.rows ∧
      ∃ found, (empty.history .usual [.insert thalassa]).store.searched "ΘΑΛΑΣ" none none = .ok found ∧
        thalassa ∉ found := by
  have stored : thalassa ∈ (empty.history .usual [.insert thalassa]).store.customers.rows :=
    List.mem_singleton.mpr rfl
  have something : isBlankText "ΘΑΛΑΣ" = false := by decide
  have hidden : ¬Store.Shows thalassa (lower (trim "ΘΑΛΑΣ")) := by
    rw [← Store.finds_iff]
    decide +kernel
  refine ⟨by decide, by decide, by decide, by decide +kernel, stored, ?_⟩
  obtain ⟨found, pages, mem, -⟩ :=
    ((empty.history .usual [.insert thalassa]).store.listing_customers (some "ΘΑΛΑΣ") none).complete
      none (by simp [ValidLimit])
  refine ⟨found, pages, fun listed ↦ hidden ?_⟩
  exact ((mem thalassa).mp listed).2.search _ rfl something

end Outreach
