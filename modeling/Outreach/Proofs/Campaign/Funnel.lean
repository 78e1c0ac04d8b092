import Mathlib.Order.Lattice
import Outreach.Proofs.Crm.History
import Outreach.Proofs.Table

/-!
# The figures of runs

The stages of a run form a funnel: no stage is larger than the one before it, and what was sent and
did not arrive has failed. This is so for all shares, sensible or not, because a share never takes
more than there is, whatever comes of the arithmetic of doubles. It is so for the figures that
campaigns are made with and for those that they have for demonstration, and nothing but the start of
a run changes them; so it is so for all campaigns in every history.
-/

namespace Outreach

/-! ## Funnels -/

/-- The figures of a run fit together. -/
structure Campaign.Stats.Funnel (s : Stats) : Prop where
  /-- Only what was opened leads to a click. -/
  clicked_le : s.clicked ≤ s.opened
  opened_le : s.opened ≤ s.delivered
  delivered_le : s.delivered ≤ s.sent
  balance : s.sent.toNat = s.delivered.toNat + s.failed.toNat
  unsubscribed : s.unsubscribed = 0

namespace Campaign

instance (s : Stats) : Decidable s.Funnel :=
  decidable_of_iff
    (s.clicked ≤ s.opened ∧ s.opened ≤ s.delivered ∧ s.delivered ≤ s.sent ∧
      s.sent.toNat = s.delivered.toNat + s.failed.toNat ∧ s.unsubscribed = 0)
    ⟨fun ⟨h₁, h₂, h₃, h₄, h₅⟩ ↦ ⟨h₁, h₂, h₃, h₄, h₅⟩,
      fun ⟨h₁, h₂, h₃, h₄, h₅⟩ ↦ ⟨h₁, h₂, h₃, h₄, h₅⟩⟩

theorem Stats.funnel_zero : Stats.zero.Funnel := by decide

/-- A share of a count is no more than the count, also if the count has been rounded up. -/
theorem applyRate_le (count : UInt64) (rate : Float) : applyRate count rate ≤ count :=
  Std.min_le_right

/-- The stages of a run form a funnel, whatever the shares are. -/
theorem Rates.funnel_dispatch (r : Rates) (recipients : UInt64) :
    (r.dispatch recipients).Funnel where
  clicked_le := applyRate_le _ _
  opened_le := applyRate_le _ _
  delivered_le := applyRate_le _ _
  balance := by
    have le := applyRate_le recipients r.delivery
    have fits := UInt64.le_iff_toNat_le.mp le
    simp only [Rates.dispatch, UInt64.toNat_sub_of_le _ _ le]
    omega
  unsubscribed := rfl

end Campaign

/-! ## Histories -/

/-- The figures of all campaigns fit together. -/
def Store.Funnels (s : Store) : Prop := ∀ c ∈ s.campaigns.rows, c.stats.Funnel

namespace Store

variable {s s' : Store}

theorem Funnels.congr (h : s.Funnels) (same : s'.campaigns = s.campaigns) : s'.Funnels := by
  rw [Funnels, same]
  exact h

theorem campaigns_insertCustomer (s : Store) (c : Customer) :
    (s.insertCustomer c).2.campaigns = s.campaigns := by
  rcases s.insertCustomer_cases c with ⟨-, h⟩ | ⟨-, h⟩ <;> rw [h]
  rfl

theorem Funnels.putCampaign {c : Campaign} (h : s.Funnels) (hc : c.stats.Funnel) :
    (s.putCampaign c).Funnels := by
  intro d hd
  rcases Table.mem_put.mp hd with rfl | ⟨hd, -⟩
  · exact hc
  · exact h d hd

end Store

namespace Crm

variable {settings : Settings.Campaigns}

/-- A move keeps the figures of a campaign or gives it those of a new run. -/
theorem Move.funnel {id : Id} {stamp : Stamp} {e : Event} {x y : Option Campaign}
    (h : Move id stamp e x y) (before : ∀ c, x = some c → c.stats.Funnel) :
    ∀ c, y = some c → c.stats.Funnel := by
  -- only a start touches the figures; the other records are copies with other fields changed
  cases h with
  | stay => exact before
  | create user r size _ here =>
    rintro _ ⟨⟩
    exact Campaign.Stats.funnel_zero
  | update =>
    rintro _ ⟨⟩
    have fit := before _ rfl
    exact fit
  | delete => rintro _ ⟨⟩
  | start user size rates =>
    rintro _ ⟨⟩
    exact rates.funnel_dispatch size
  | pause =>
    rintro _ ⟨⟩
    have fit := before _ rfl
    exact fit
  | complete =>
    rintro _ ⟨⟩
    have fit := before _ rfl
    exact fit

theorem funnels_after (w : Crm) (stamp : Stamp) (e : Event) (h : w.store.Funnels) :
    (w.after settings stamp e).store.Funnels := by
  intro c hc
  refine (move_after settings w stamp c.id e).funnel (fun d hd ↦ ?_) c (Table.find?_of_mem hc)
  exact h d (Table.mem_of_find? hd)

end Crm

namespace Demo

variable (now : Calendar.Instant) (admin : User) (ids : Nat → Id) (chance : Chance)

theorem campaigns_addCustomers (n : Nat) (names : List String) (s : Store) :
    (addCustomers now ids chance n names s).2.campaigns = s.campaigns := by
  induction names generalizing n s with
  | nil => rfl
  | cons name names ih => exact (ih (n + 1) _).trans (s.campaigns_insertCustomer _)

/-- The figures of the campaigns for demonstration, which do not depend on the time, fit together. -/
theorem funnel_themes : ∀ t ∈ themes now, (t.stats.getD .zero).Funnel := by
  have fixed : (themes now).map (·.stats.getD .zero) = (themes .epoch).map (·.stats.getD .zero) := by
    simp only [themes, List.map_cons, List.map_nil]
  have fit : ∀ s ∈ (themes .epoch).map (·.stats.getD .zero), s.Funnel := by decide
  intro t ht
  exact fit _ (fixed ▸ List.mem_map_of_mem ht)

theorem funnels_addCampaigns (n : Nat) (ts : List Theme) (s : Store)
    (fit : ∀ t ∈ ts, (t.stats.getD .zero).Funnel) (h : s.Funnels) :
    (addCampaigns now ids admin n ts s).Funnels := by
  induction ts generalizing n s with
  | nil => exact h
  | cons t ts ih =>
    refine ih (n + 1) _ (fun t ht ↦ fit t (List.mem_cons_of_mem _ ht)) (h.putCampaign ?_)
    exact fit t List.mem_cons_self

theorem funnels_seed (s : Store) (h : s.Funnels) : (seed s now admin ids chance).2.Funnels := by
  have same := campaigns_addCustomers now ids chance 0 names s
  unfold seed
  revert same
  generalize addCustomers now ids chance 0 names s = added
  intro same
  refine funnels_addCampaigns now admin ids 0 _ _ (funnel_themes now) (h.congr ?_)
  exact (addOrders_frame ..).2.2.trans same

end Demo

namespace Crm

variable {settings : Settings.Campaigns}

theorem funnels_act (w : Crm) (d : Deed) (h : w.store.Funnels) :
    (w.act settings d).store.Funnels := by
  cases d with
  | event stamp e => exact w.funnels_after stamp e h
  | insert c => exact h.congr (w.store.campaigns_insertCustomer c)
  | fill now admin ids chance =>
    rw [store_act_fill]
    exact Demo.funnels_seed now admin ids chance w.store h

/-- In a history the figures of all campaigns fit together, if they did in the beginning. -/
theorem funnels_history (w : Crm) (deeds : List Deed) (h : w.store.Funnels) :
    (w.history settings deeds).store.Funnels := by
  induction deeds generalizing w with
  | nil => exact h
  | cons d deeds ih =>
    rw [history_cons]
    exact ih _ (w.funnels_act d h)

end Crm

end Outreach
