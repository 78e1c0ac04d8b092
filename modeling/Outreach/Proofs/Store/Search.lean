import Outreach.Proofs.Rule.Reading
import Outreach.Proofs.Store.Addresses
import Outreach.Proofs.Store.Lists
import Outreach.Proofs.Store.Records

/-!
# Searching and rules

Searching customers for a text and asking for it by rules comes to the same. The two put different
things into small letters: a rule does so with whatever it looks in, while the search takes addresses
for mail as they are. They agree because addresses are stored in their normal form, which is in small
letters and is not changed by being put into them once more.
-/

namespace Outreach

open Paging Text

/-! ## Addresses in their normal form -/

/-- A text in small letters without white space around it is its own normal form. -/
theorem Customer.normalizeEmail_eq_self {email : String}
    (small : ∀ c ∈ email.toList, IsSmall c) (trimmed : Trimmed email.toList) :
    normalizeEmail email = email := by
  rw [← String.toList_inj, toList_normalizeEmail, trimmed.trimChars_eq]
  exact lowerFrom_eq_self [] small

theorem Demo.toList_emailOf (name : String) : (emailOf name).toList =
    (lowerChars name.toList).takeWhile (· != ' ') ++
      '.' :: ((lowerChars name.toList).dropWhile (· != ' ')).drop 1 ++ "@example.com".toList := by
  rw [emailOf, String.toList_append, String.toList_ofList]

/-- The address for demonstration of a name that does not begin with white space is in its normal
form. -/
theorem Demo.normal_emailOf {name : String} (first : name.toList.head?.any isBlank = false) :
    Customer.normalizeEmail (emailOf name) = emailOf name := by
  have lowers := lowers_lowerChars name.toList
  have point : IsSmall '.' := by decide
  have domain : "@example.com".toList.all (fun c ↦ decide (IsSmall c)) = true := by decide +kernel
  rw [← lowers.head?_any fun _ ↦ isBlank_eq_false] at first
  apply Customer.normalizeEmail_eq_self
  · intro c hc
    rw [toList_emailOf, List.mem_append, List.mem_append, List.mem_cons] at hc
    rcases hc with (hc | rfl | hc) | hc
    · exact lowers.small c ((List.takeWhile_sublist _).subset hc)
    · exact point
    · exact lowers.small c ((List.dropWhile_sublist _).subset (List.mem_of_mem_drop hc))
    · exact of_decide_eq_true (List.all_eq_true.mp domain c hc)
  · rw [toList_emailOf]
    constructor
    · intro c hc
      cases cs : lowerChars name.toList with
      | nil =>
        rw [cs] at hc
        cases hc
        rfl
      | cons d ds =>
        rw [cs] at hc first
        by_cases space : d = ' '
        · subst space
          cases hc
          rfl
        · rw [List.takeWhile_cons, if_pos (bne_iff_ne.mpr space)] at hc
          cases hc
          exact first
    · intro c hc
      rw [List.getLast?_append_of_ne_nil _ (by decide)] at hc
      cases hc
      rfl

theorem Demo.head?_name {name : String} (h : name ∈ names) :
    name.toList.head?.any isBlank = false := by
  have all : ∀ name ∈ names, name.toList.head?.any isBlank = false := by decide
  exact all name h

/-- An address in its normal form is in small letters. -/
theorem Customer.lower_of_normal {email : String} (h : normalizeEmail email = email) :
    lower email = email := by
  rw [← h, lower_normalizeEmail]

/-! ## Rules that look for a text -/

namespace Rule

/-- The rule that looks for a text in a field. -/
def mentions (field text : String) : Rule := ⟨field, .contains, .text text, .and⟩

variable {c : Customer} {r : Rule}

/-- A rule alone lets through those of whom it holds. -/
theorem letsThrough_singleton (recognized : r.operator.isRecognized = true) :
    LetsThrough [r] c ↔ r.Holds c := by
  have only : Rule.recognized [r] = [r] := List.filter_cons_of_pos recognized
  simp [LetsThrough, only]

/-- A rule that looks for a text in a field that holds a text. -/
theorem holds_mentions_iff {field text : String} {content : Option String}
    (read : (Field.ofName field).read? c = some (.text content)) :
    (mentions field text).Holds c ↔
      ∃ s, content = some s ∧ (lower text).toList <:+: (lower s).toList := by
  rw [holds_iff_answers read rfl]
  simp [mentions, Field.Content.Answers, Field.Content.Mentions, Field.Content.texts]

end Rule

namespace Store

/-- The rules that look for a text, without white space around it, in the name, the address for mail
and the telephone number. -/
def searchRules (text : String) : List Rule :=
  ["name", "email", "phone"].map fun field ↦ Rule.mentions field (trim text)

/-- A customer whose address is in its normal form shows a text in small letters if one of the rules
holds that look for the text. -/
theorem shows_iff {c : Customer} (normal : Customer.normalizeEmail c.email = c.email)
    (text : String) : Shows c (lower (trim text)) ↔ ∃ r ∈ searchRules text, r.Holds c := by
  have name : (Rule.Field.ofName "name").read? c = some (.text (some c.name)) := rfl
  have email : (Rule.Field.ofName "email").read? c = some (.text (some c.email)) := rfl
  have phone : (Rule.Field.ofName "phone").read? c = some (.text c.phone) := rfl
  simp only [searchRules, List.map_cons, List.map_nil, List.exists_mem_cons_iff,
    Rule.holds_mentions_iff name, Rule.holds_mentions_iff email, Rule.holds_mentions_iff phone,
    Option.some.injEq, exists_eq_left', Customer.lower_of_normal normal, List.not_mem_nil,
    false_and, exists_false, or_false, Shows]

/-- All pages of a list of customers that a text is searched in. -/
def searched (s : Store) (text : String) (status : Option Customer.Status) (limit? : Option Nat) :
    Except Fault (List Customer) :=
  collect fun n ↦ s.listCustomers ⟨some n, limit?, some text, status⟩

variable {s : Store} {text : String} {limit? : Option Nat}

/-- If all addresses are in their normal form, those are found who have the status, if one is given,
and of whom one of the rules holds. -/
theorem searched_exact (normal : ∀ c ∈ s.customers.rows, Customer.normalizeEmail c.email = c.email)
    (something : isBlankText text = false) (valid : ValidLimit limit?)
    (status : Option Customer.Status) :
    ∃ found, s.searched text status limit? = .ok found ∧
      ∀ c, c ∈ found ↔ c ∈ s.customers.rows ∧ (∀ st, status = some st → c.status = st) ∧
        ∃ r ∈ searchRules text, r.Holds c := by
  obtain ⟨found, pages, mem, -⟩ := (s.listing_customers (some text) status).complete limit? valid
  refine ⟨found, pages, fun c ↦ ?_⟩
  rw [mem]
  refine and_congr_right fun hc ↦ ?_
  rw [← shows_iff (normal c hc)]
  constructor
  · rintro ⟨status, shown⟩
    exact ⟨status, shown text rfl something⟩
  · rintro ⟨status, shown⟩
    refine ⟨status, ?_⟩
    rintro _ ⟨⟩ -
    exact shown

/-- The rules that look for a text have operators. -/
theorem recognized_of_searchRules {r : Rule} (h : r ∈ searchRules text) :
    r.operator.isRecognized = true := by
  obtain ⟨field, -, rfl⟩ := List.mem_map.mp h
  rfl

end Store

/-- In every state that a history leads to in which customers are added as they are only with
addresses in their normal form, searching for a text that is not blank finds exactly the customers
of whom one of the three rules holds that look for the text, without white space around it, in the
name, the address for mail and the telephone number; and among the active customers it finds exactly
the audiences of these three rules. -/
theorem Crm.search_agrees (settings : Settings.Campaigns) (deeds : List Deed)
    (normal : ∀ c, .insert c ∈ deeds → Customer.normalizeEmail c.email = c.email) (text : String)
    (something : isBlankText text = false) (limit? : Option Nat) (valid : ValidLimit limit?) :
    let s := (empty.history settings deeds).store
    (∃ found, s.searched text none limit? = .ok found ∧
      ∀ c, c ∈ found ↔ c ∈ s.customers.rows ∧ ∃ r ∈ Store.searchRules text, r.Holds c) ∧
    ∃ found, s.searched text (some .active) limit? = .ok found ∧
      ∀ c, c ∈ found ↔
        ∃ r ∈ Store.searchRules text, c ∈ Audience.evaluate s.customers.rows [r] := by
  intro s
  have stored : ∀ c ∈ s.customers.rows, Customer.normalizeEmail c.email = c.email := by
    apply forall_customers_history Customer.lasting_normal _ normal
    · intro c hc
      cases hc
    · intro name hname id now chance
      exact Demo.normal_emailOf (Demo.head?_name hname)
  constructor
  · obtain ⟨found, pages, mem⟩ := Store.searched_exact stored something valid none
    refine ⟨found, pages, fun c ↦ ?_⟩
    rw [mem]
    simp
  · obtain ⟨found, pages, mem⟩ := Store.searched_exact stored something valid (some .active)
    refine ⟨found, pages, fun c ↦ ?_⟩
    rw [mem]
    constructor
    · rintro ⟨hc, active, r, hr, holds⟩
      refine ⟨r, hr, Audience.mem_evaluate.mpr ⟨hc, ?_, ?_⟩⟩
      · exact decide_eq_true (active _ rfl)
      · exact (Rule.letsThrough_singleton (Store.recognized_of_searchRules hr)).mpr holds
    · rintro ⟨r, hr, admitted⟩
      obtain ⟨hc, active, through⟩ := Audience.mem_evaluate.mp admitted
      refine ⟨hc, ?_, r, hr, ?_⟩
      · rintro _ ⟨⟩
        exact of_decide_eq_true active
      · exact (Rule.letsThrough_singleton (Store.recognized_of_searchRules hr)).mp through

/-- In capital letters and with white space around it, a part of an address is found. -/
theorem Crm.search_agrees_twoCustomers :
    (∀ c, .insert c ∈ twoCustomers → Customer.normalizeEmail c.email = c.email) ∧
      isBlankText " XENO " = false ∧ ValidLimit none ∧
      ∃ found, (empty.history .usual twoCustomers).store.searched " XENO " none none = .ok found ∧
        ∃ c ∈ found, c.email = "ann@xeno.in" := by
  have normal : ∀ c, .insert c ∈ twoCustomers → Customer.normalizeEmail c.email = c.email := by
    simp [twoCustomers]
  have something : isBlankText " XENO " = false := by decide
  have valid : ValidLimit none := by simp [ValidLimit]
  obtain ⟨⟨found, pages, mem⟩, -⟩ :=
    search_agrees .usual twoCustomers normal " XENO " something none valid
  have stored : ((empty.history .usual twoCustomers).store.customers.find? ⟨1⟩).map (·.email) =
      some "ann@xeno.in" := by decide
  obtain ⟨c, hc, email⟩ := Option.map_eq_some_iff.mp stored
  have holds : (Rule.mentions "email" (trim " XENO ")).Holds c := by
    have read : (Rule.Field.ofName "email").read? c = some (.text (some c.email)) := rfl
    refine (Rule.holds_mentions_iff read).mpr ⟨_, rfl, ?_⟩
    rw [email]
    decide +kernel
  refine ⟨normal, something, valid, found, pages, c, (mem c).mpr ⟨?_, _, ?_, holds⟩, email⟩
  · exact Table.mem_of_find? hc
  · simp [Store.searchRules]

end Outreach
