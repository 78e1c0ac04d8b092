import Outreach.Proofs.Audience.Evaluation
import Outreach.Proofs.Paging
import Outreach.Proofs.Table
import Outreach.Store.Campaigns
import Outreach.Store.Customers
import Outreach.Store.Orders

/-!
# Lists of customers, orders and campaigns

The three lists are handed out alike: the pages together hold exactly the records that are wanted,
each once and the newest first, where the identity decides between records of one instant. How the
records are arranged in the store makes no difference.
-/

namespace Outreach

open Calendar Paging

/-! ## Orders of records -/

/-- When an order was placed, and the identity for orders of one instant. -/
def Order.recency (o : Order) : Instant ×ₗ Id := toLex (o.orderDate, o.id)

/-- When the record of a campaign was made, and the identity for records of one instant. -/
def Campaign.recency (c : Campaign) : Instant ×ₗ Id := toLex (c.createdAt, c.id)

/-- Newer records first means: downwards in the order of seniority. -/
theorem Customer.newerFirst_comparesBy :
    ComparesBy Customer.newerFirst (OrderDual.toDual ∘ Customer.seniority) :=
  fun a b ↦ Customer.olderFirst_comparesBy b a

theorem Order.laterFirst_comparesBy :
    ComparesBy Order.laterFirst (OrderDual.toDual ∘ Order.recency) := by
  intro a b
  have swap : (a.orderDate == b.orderDate) = (b.orderDate == a.orderDate) := BEq.comm
  simp [laterFirst, swap, recency, Prod.Lex.toLex_le_toLex]

theorem Campaign.newerFirst_comparesBy :
    ComparesBy Campaign.newerFirst (OrderDual.toDual ∘ Campaign.recency) := by
  intro a b
  have swap : (a.createdAt == b.createdAt) = (b.createdAt == a.createdAt) := BEq.comm
  simp [newerFirst, swap, recency, Prod.Lex.toLex_le_toLex]

namespace Store

variable {s s' : Store}

/-- Records with different identities differ in what they are sorted by. -/
theorem nodup_recency {α : Type} {id : α → Id} (t : Table id) (time : α → Instant) :
    (t.rows.map fun a ↦ toLex (time a, id a)).Nodup := by
  refine List.Nodup.of_map (fun k ↦ (ofLex k).2) ?_
  rw [List.map_map]
  exact t.nodup

/-! ## What is wanted -/

/-- A text in small letters stands in the name, the address for mail or the telephone number of a
customer, of which the name and the number are put into small letters. -/
def Shows (c : Customer) (needle : String) : Prop :=
  needle.toList <:+: (Text.lower c.name).toList ∨ needle.toList <:+: c.email.toList ∨
    ∃ phone, c.phone = some phone ∧ needle.toList <:+: (Text.lower phone).toList

/-- A customer with the status, if one is given, who shows the text that is searched for, if one is
given that is not blank. -/
structure CustomerQuery.Wants (search : Option String) (status : Option Customer.Status)
    (c : Customer) : Prop where
  status : ∀ st, status = some st → c.status = st
  search : ∀ text, search = some text → Text.isBlankText text = false →
    Shows c (Text.lower (Text.trim text))

/-- An order with the status and of the customer, as far as these are given. -/
structure OrderQuery.Wants (status : Option Order.Status) (customerId : Option Id) (o : Order) :
    Prop where
  status : ∀ st, status = some st → o.status = st
  customerId : ∀ id, customerId = some id → o.customerId = id

/-- A campaign with the status, if one is given. -/
def CampaignQuery.Wants (status : Option Campaign.Status) (c : Campaign) : Prop :=
  ∀ st, status = some st → c.status = st

theorem finds_iff {needle : String} {c : Customer} :
    CustomerQuery.finds needle c = true ↔ Shows c needle := by
  rw [CustomerQuery.finds, Bool.or_eq_true, Bool.or_eq_true, Option.any_eq_true, or_assoc, Shows,
    Text.toList_lower]
  simp only [Text.containsLower, Text.contains, Text.occursIn_iff, Text.toList_lower]

theorem CustomerQuery.accepts_iff {q : CustomerQuery} {c : Customer} :
    q.accepts c = true ↔ Wants q.search q.status c := by
  simp only [accepts, Bool.and_eq_true, Option.all_eq_true, beq_iff_eq, finds_iff]
  constructor
  · rintro ⟨status, shown⟩
    refine ⟨status, fun text given something ↦ shown _ ?_⟩
    simp [needle?, given, something]
  · rintro ⟨status, shown⟩
    refine ⟨status, fun needle given ↦ ?_⟩
    obtain ⟨text, kept, rfl⟩ := Option.map_eq_some_iff.mp given
    obtain ⟨given, something⟩ := Option.filter_eq_some_iff.mp kept
    exact shown text given (by simpa using something)

theorem OrderQuery.accepts_iff {q : OrderQuery} {o : Order} :
    q.accepts o = true ↔ Wants q.status q.customerId o := by
  simp only [accepts, Bool.and_eq_true, Option.all_eq_true, beq_iff_eq]
  exact ⟨fun h ↦ ⟨h.1, h.2⟩, fun h ↦ ⟨h.1, h.2⟩⟩

theorem CampaignQuery.accepts_iff {q : CampaignQuery} {c : Campaign} :
    q.accepts c = true ↔ Wants q.status c := by
  simp only [accepts, Option.all_eq_true, beq_iff_eq, Wants]

/-! ## The three lists -/

theorem listing_customers (s : Store) (search : Option String) (status : Option Customer.Status) :
    Listing s.customers.rows (CustomerQuery.Wants search status) Customer.seniority
      fun page? limit? ↦ s.listCustomers ⟨page?, limit?, search, status⟩ :=
  listing Customer.newerFirst_comparesBy (nodup_recency s.customers Customer.createdAt)
    fun _ ↦ CustomerQuery.accepts_iff (q := ⟨none, none, search, status⟩)

theorem listing_orders (s : Store) (status : Option Order.Status) (customerId : Option Id) :
    Listing s.orders.rows (OrderQuery.Wants status customerId) Order.recency
      fun page? limit? ↦ s.listOrders ⟨page?, limit?, status, customerId⟩ :=
  listing Order.laterFirst_comparesBy (nodup_recency s.orders Order.orderDate)
    fun _ ↦ OrderQuery.accepts_iff (q := ⟨none, none, status, customerId⟩)

theorem listing_campaigns (s : Store) (status : Option Campaign.Status) :
    Listing s.campaigns.rows (CampaignQuery.Wants status) Campaign.recency
      fun page? limit? ↦ s.listCampaigns ⟨page?, limit?, status⟩ :=
  listing Campaign.newerFirst_comparesBy (nodup_recency s.campaigns Campaign.createdAt)
    fun _ ↦ CampaignQuery.accepts_iff (q := ⟨none, none, status⟩)

/-- Which records there are decides what is listed, and their arrangement does not. -/
theorem mergeSort_filter_eq {α κ : Type} [LinearOrder κ] {id : α → Id} {t t' : Table id}
    {le : α → α → Bool} {key : α → κ} (sorts : ComparesBy le (OrderDual.toDual ∘ key))
    (distinct : (t.rows.map key).Nodup) (same : ∀ a, a ∈ t'.rows ↔ a ∈ t.rows) (p : α → Bool) :
    (t'.rows.filter p).mergeSort le = (t.rows.filter p).mergeSort le := by
  have arranged : t'.rows.Perm t.rows :=
    (List.perm_ext_iff_of_nodup t'.nodup_rows t.nodup_rows).mpr same
  exact (sorts.mergeSort_eq_of_perm (nodup_keys distinct p) (arranged.symm.filter p)).symm

/-- For every state of the store and every filter, the pages of the lists of customers, orders and
campaigns together hold exactly the stored records that are wanted, each once and strictly descending
by time and identity, every page tells how many there are, and a page below the first or a limit that
is out of range is refused. Which records are stored decides alone what is listed, whatever their
arrangement. -/
theorem lists_exact (s : Store) :
    (∀ search status, Listing s.customers.rows (CustomerQuery.Wants search status)
      Customer.seniority fun page? limit? ↦ s.listCustomers ⟨page?, limit?, search, status⟩) ∧
    (∀ status customerId, Listing s.orders.rows (OrderQuery.Wants status customerId)
      Order.recency fun page? limit? ↦ s.listOrders ⟨page?, limit?, status, customerId⟩) ∧
    (∀ status, Listing s.campaigns.rows (CampaignQuery.Wants status)
      Campaign.recency fun page? limit? ↦ s.listCampaigns ⟨page?, limit?, status⟩) ∧
    ∀ s' : Store,
      ((∀ c, c ∈ s'.customers.rows ↔ c ∈ s.customers.rows) →
        ∀ q, s'.listCustomers q = s.listCustomers q) ∧
      ((∀ o, o ∈ s'.orders.rows ↔ o ∈ s.orders.rows) →
        ∀ q, s'.listOrders q = s.listOrders q) ∧
      ((∀ c, c ∈ s'.campaigns.rows ↔ c ∈ s.campaigns.rows) →
        ∀ q, s'.listCampaigns q = s.listCampaigns q) := by
  refine ⟨s.listing_customers, s.listing_orders, s.listing_campaigns, fun s' ↦ ⟨?_, ?_, ?_⟩⟩
  · intro same q
    rw [listCustomers, customersFor, mergeSort_filter_eq Customer.newerFirst_comparesBy
      (nodup_recency s.customers Customer.createdAt) same]
    rfl
  · intro same q
    rw [listOrders, ordersFor, mergeSort_filter_eq Order.laterFirst_comparesBy
      (nodup_recency s.orders Order.orderDate) same]
    rfl
  · intro same q
    rw [listCampaigns, campaignsFor, mergeSort_filter_eq Campaign.newerFirst_comparesBy
      (nodup_recency s.campaigns Campaign.createdAt) same]
    rfl

end Store

end Outreach
