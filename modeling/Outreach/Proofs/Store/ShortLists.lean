import Outreach.Proofs.Audience.Growth
import Outreach.Proofs.Calendar.Order
import Outreach.Proofs.Foremost
import Outreach.Proofs.Store.Ranks
import Outreach.Proofs.Store.Totals
import Outreach.Proofs.Table

/-!
# Short lists

Beside a customer the latest orders are shown, and figures name the latest orders and campaigns, the
newest customers and those who have spent most. Each of these lists names the foremost of the stored
records, up to a fixed number of them, however the records are arranged when they are gone through.
Where only a part of a record is shown, the identity is among it, so that all that are shown are
different. There are no figures about campaigns if their totals cannot be counted.

Customers are sorted by the rank of what they have spent, but whoever has spent more comes first as
numbers go, too.
-/

namespace Outreach

open Calendar

/-! ## What is shown of records -/

/-- A summary shows a customer: it says what is stored of this customer. -/
structure Customer.ShownBy (c : Customer) (s : Customer.Summary) : Prop where
  id : s.id = c.id
  name : s.name = c.name
  email : s.email = c.email
  totalSpending : s.totalSpending = c.totalSpending
  visits : s.visits = c.visits
  lastPurchaseDate : s.lastPurchaseDate = c.lastPurchaseDate

/-- A digest shows a campaign: it says what is stored of this campaign. -/
structure Campaign.ShownBy (c : Campaign) (d : Campaign.Digest) : Prop where
  id : d.id = c.id
  name : d.name = c.name
  status : d.status = c.status
  stats : d.stats = c.stats
  createdAt : d.createdAt = c.createdAt

theorem Customer.shownBy_summary (c : Customer) : c.ShownBy c.summary :=
  ⟨rfl, rfl, rfl, rfl, rfl, rfl⟩

theorem Campaign.shownBy_digest (c : Campaign) : c.ShownBy c.digest := ⟨rfl, rfl, rfl, rfl, rfl⟩

namespace Store

variable {s s' : Store}

/-! ## What records are sorted by -/

theorem laterOrder_comparesBy : ComparesBy laterOrder (OrderDual.toDual ∘ Order.orderDate) :=
  fun _ _ ↦ Instant.le_eq_true

theorem cameLater_comparesBy : ComparesBy cameLater (OrderDual.toDual ∘ Customer.createdAt) :=
  fun _ _ ↦ Instant.le_eq_true

theorem madeLater_comparesBy : ComparesBy madeLater (OrderDual.toDual ∘ Campaign.createdAt) :=
  fun _ _ ↦ Instant.le_eq_true

theorem spendsMore_comparesBy :
    ComparesBy spendsMore (OrderDual.toDual ∘ floatRank ∘ Customer.totalSpending) :=
  fun _ _ ↦ decide_eq_true_iff

/-! ## The lists -/

def ordersBy (s : Store) (id : Id) : List Order := s.orders.rows.filter (·.customerId == id)

/-- What the short lists of a store name, in terms of the records of another one. -/
structure ShortLists (s s' : Store) : Prop where
  /-- Beside a customer stand the ten latest orders of this customer. -/
  beside_customer : ∀ c ∈ s.customers.rows, ∃ d, s'.customerDetail c.id = .ok d ∧ d.customer = c ∧
    Foremost 10 (s.ordersBy c.id) (fun a b ↦ b.orderDate < a.orderDate) d.recentOrders
  /-- For anybody else there is no such view. -/
  unknown_customer : ∀ id, (∀ c ∈ s.customers.rows, c.id ≠ id) →
    s'.customerDetail id = .error (.missing .customer)
  /-- At any time, the five latest orders of all are named. -/
  latest_orders : ∀ now, Foremost 5 s.orders.rows (fun a b ↦ b.orderDate < a.orderDate)
    (s'.orderFigures now).recent
  /-- The five customers are shown who have spent most, by rank and by number, -/
  top_spenders : ∃ cs, cs.Forall₂ Customer.ShownBy s'.customerFigures.topSpenders ∧
    Foremost 5 s.customers.rows
      (fun a b ↦ floatRank b.totalSpending < floatRank a.totalSpending) cs ∧
    Foremost 5 s.customers.rows (fun a b ↦ b.totalSpending < a.totalSpending) cs
  /-- and the five newest. -/
  newest_customers : ∃ cs, cs.Forall₂ Customer.ShownBy s'.customerFigures.recent ∧
    Foremost 5 s.customers.rows (fun a b ↦ b.createdAt < a.createdAt) cs
  /-- No customer is shown twice. -/
  customers_distinct : (s'.customerFigures.topSpenders.map (·.id)).Nodup ∧
    (s'.customerFigures.recent.map (·.id)).Nodup
  /-- There are figures about the campaigns exactly if the totals of the completed ones can be
  counted. -/
  campaigns_counted : (∃ f, s'.campaignFigures? = some f) ↔
    ∀ x : Figure, total x.ofRun s.completedRuns < 2 ^ 64
  /-- They show the five newest campaigns, -/
  newest_campaigns : ∀ f, s'.campaignFigures? = some f →
    ∃ cs, cs.Forall₂ Campaign.ShownBy f.recent ∧
      Foremost 5 s.campaigns.rows (fun a b ↦ b.createdAt < a.createdAt) cs
  /-- and none of them twice. -/
  campaigns_distinct : ∀ f, s'.campaignFigures? = some f → (f.recent.map (·.id)).Nodup

theorem foremost_ordersBy (s : Store) (id : Id) :
    Foremost 10 (s.ordersBy id) (fun a b ↦ b.orderDate < a.orderDate)
      (((s.ordersBy id).mergeSort laterOrder).take recentOrderCount) :=
  .take_mergeSort laterOrder_comparesBy (s.orders.nodup_rows.filter _) _

theorem customerDetail_of_mem {c : Customer} (h : c ∈ s.customers.rows) :
    s.customerDetail c.id =
      .ok ⟨c, ((s.ordersBy c.id).mergeSort laterOrder).take recentOrderCount⟩ := by
  rw [customerDetail, customer, Table.find?_of_mem h]
  rfl

theorem customerDetail_of_unknown {id : Id} (h : ∀ c ∈ s.customers.rows, c.id ≠ id) :
    s.customerDetail id = .error (.missing .customer) := by
  rw [customerDetail, customer, Table.find?_eq_none_iff.mpr h]
  rfl

theorem foremost_spenders (s : Store) :
    Foremost 5 s.customers.rows
      (fun a b ↦ floatRank b.totalSpending < floatRank a.totalSpending)
      ((s.customers.rows.mergeSort spendsMore).take listSize) :=
  .take_mergeSort spendsMore_comparesBy s.customers.nodup_rows _

theorem foremost_newcomers (s : Store) :
    Foremost 5 s.customers.rows (fun a b ↦ b.createdAt < a.createdAt)
      ((s.customers.rows.mergeSort cameLater).take listSize) :=
  .take_mergeSort cameLater_comparesBy s.customers.nodup_rows _

theorem foremost_campaigns (s : Store) :
    Foremost 5 s.campaigns.rows (fun a b ↦ b.createdAt < a.createdAt)
      ((s.campaigns.rows.mergeSort madeLater).take digestCount) :=
  .take_mergeSort madeLater_comparesBy s.campaigns.nodup_rows _

theorem recent_of_campaignFigures? {f : CampaignFigures} (h : s.campaignFigures? = some f) :
    f.recent = ((s.campaigns.rows.mergeSort madeLater).take digestCount).map Campaign.digest := by
  rw [(campaignFigures?_eq_some_iff.mp h).2]

/-- The short lists of a store name the foremost of its own records. -/
theorem shortLists_self (s : Store) : ShortLists s s where
  beside_customer c hc := ⟨_, customerDetail_of_mem hc, rfl, s.foremost_ordersBy c.id⟩
  unknown_customer _ h := customerDetail_of_unknown h
  latest_orders _ := .take_mergeSort laterOrder_comparesBy s.orders.nodup_rows _
  top_spenders := ⟨_, forall₂_views Customer.shownBy_summary _, s.foremost_spenders,
    s.foremost_spenders.imp fun _ _ more ↦ floatRank_lt_of_lt more⟩
  newest_customers := ⟨_, forall₂_views Customer.shownBy_summary _, s.foremost_newcomers⟩
  customers_distinct := ⟨s.foremost_spenders.nodup_views s.customers.nodup,
    s.foremost_newcomers.nodup_views s.customers.nodup⟩
  campaigns_counted := exists_campaignFigures?_iff
  newest_campaigns f given := by
    rw [recent_of_campaignFigures? given]
    exact ⟨_, forall₂_views Campaign.shownBy_digest _, s.foremost_campaigns⟩
  campaigns_distinct f given := by
    rw [recent_of_campaignFigures? given]
    exact s.foremost_campaigns.nodup_views s.campaigns.nodup

/-- However the campaigns are arranged, the completed runs have the same sums. -/
theorem total_completedRuns_of_perm (campaigns : s'.campaigns.rows.Perm s.campaigns.rows)
    (x : Figure) : total x.ofRun s'.completedRuns = total x.ofRun s.completedRuns :=
  (((campaigns.filter _).map _).map _).sum_eq

/-- However the customers, orders and campaigns of a store are arranged when they are gone through,
the short lists show the foremost of them: as many different stored records as asked for, or as there
are, in order, and none that is left out is before any that is shown. -/
theorem shortLists_foremost (s s' : Store)
    (customers : s'.customers.rows.Perm s.customers.rows)
    (orders : s'.orders.rows.Perm s.orders.rows)
    (campaigns : s'.campaigns.rows.Perm s.campaigns.rows) : ShortLists s s' := by
  have lists := shortLists_self s'
  refine ⟨?_, ?_, ?_, ?_, ?_, lists.customers_distinct, ?_, ?_, lists.campaigns_distinct⟩
  · intro c hc
    obtain ⟨d, shown, same, latest⟩ := lists.beside_customer c (customers.symm.subset hc)
    exact ⟨d, shown, same, latest.perm (orders.filter _)⟩
  · intro id unknown
    exact lists.unknown_customer id fun c hc ↦ unknown c (customers.subset hc)
  · intro now
    exact (lists.latest_orders now).perm orders
  · obtain ⟨cs, shown, rank, number⟩ := lists.top_spenders
    exact ⟨cs, shown, rank.perm customers, number.perm customers⟩
  · obtain ⟨cs, shown, newest⟩ := lists.newest_customers
    exact ⟨cs, shown, newest.perm customers⟩
  · simp only [← total_completedRuns_of_perm campaigns]
    exact lists.campaigns_counted
  · intro f given
    obtain ⟨cs, shown, newest⟩ := lists.newest_campaigns f given
    exact ⟨cs, shown, newest.perm campaigns⟩

/-- A customer who has spent an amount. All of them came at the same instant. -/
def spender (number : BitVec 128) (amount : Float) : Customer :=
  { Audience.twin number with totalSpending := amount }

/-- Six customers, of whom the first has spent least. -/
def crowd : List Customer :=
  [spender 1 0.0, spender 2 20.0, spender 3 5.0, spender 4 20.0, spender 5 7.5, spender 6 5.0]

def crowded : Store := { Store.empty with customers := ⟨crowd, by decide⟩ }

/-- The same store, gone through backwards. -/
def crowdedBackwards : Store := { Store.empty with customers := ⟨crowd.reverse, by decide⟩ }

/-- Of six customers the five are shown who have spent something. -/
theorem shortLists_foremost_crowded :
    crowdedBackwards.customers.rows.Perm crowded.customers.rows ∧
      crowdedBackwards.customerFigures.topSpenders.length = 5 ∧
      ∀ shown ∈ crowdedBackwards.customerFigures.topSpenders, shown.id ≠ (spender 1 0.0).id := by
  have backwards : crowdedBackwards.customers.rows.Perm crowded.customers.rows :=
    List.reverse_perm crowd
  have lists := shortLists_foremost crowded crowdedBackwards backwards (.refl _) (.refl _)
  obtain ⟨cs, shows, -, most⟩ := lists.top_spenders
  have others : ∀ c ∈ crowd, c = spender 1 0.0 ∨
      (spender 1 0.0).totalSpending < c.totalSpending := by decide +kernel
  have five : cs.length = 5 := most.length_eq
  -- nobody can be left out, since all others have spent more
  have least : spender 1 0.0 ∉ cs := by
    intro least
    have all : crowd ⊆ cs := by
      intro c hc
      by_contra out
      rcases others c hc with rfl | more
      · exact out least
      · exact most.left_out c hc out _ least more
    have six : 6 ≤ cs.length := (List.subperm_of_subset crowded.customers.nodup_rows all).length_le
    omega
  refine ⟨backwards, shows.length_eq ▸ five, fun shown there same ↦ ?_⟩
  obtain ⟨⟨i, hi⟩, rfl⟩ := List.mem_iff_get.mp there
  have hc := List.get_mem cs ⟨i, shows.length_eq ▸ hi⟩
  have known : ∀ c ∈ crowd, c.id = (spender 1 0.0).id → c = spender 1 0.0 := by decide +kernel
  have first := known _ (most.mem _ hc) ((shows.get _ hi).id.symm.trans same)
  exact least (first ▸ hc)

end Store

end Outreach
