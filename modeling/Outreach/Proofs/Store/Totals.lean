import Mathlib.Algebra.Ring.Nat
import Outreach.Proofs.Campaign.Funnel
import Outreach.Proofs.Decimal.Counts
import Outreach.Store.Performance

/-!
# What completed campaigns achieved together

As long as the number of all messages that were sent can be counted, there are totals, the sums over the
completed campaigns, and what holds of the figures of each run holds of the totals. The percentages
are taken of totals that are not zero, as doubles too.
-/

namespace Outreach.Store

open Campaign (Stats)

/-- The figures of the runs that have been completed. -/
def completedRuns (s : Store) : List Stats :=
  (s.campaigns.rows.filter (·.status == .completed)).map (·.stats)

/-- The sum of one of the figures of runs. -/
def total (figure : Stats → UInt64) (runs : List Stats) : Nat :=
  (runs.map fun s ↦ (figure s).toNat).sum

/-! ## Sums -/

/-- The figures that are added up. -/
inductive Figure where
  | sent
  | delivered
  | opened
  | clicked
  | failed

namespace Figure

def ofRun : Figure → Stats → UInt64
  | sent, r => r.sent
  | delivered, r => r.delivered
  | opened, r => r.opened
  | clicked, r => r.clicked
  | failed, r => r.failed

def ofTotals : Figure → Performance → UInt64
  | sent, p => p.sent
  | delivered, p => p.delivered
  | opened, p => p.opened
  | clicked, p => p.clicked
  | failed, p => p.failed

end Figure

namespace Performance

/-- The totals with given figures. -/
def ofFigures (v : Figure → UInt64) : Performance :=
  ⟨v .sent, v .delivered, v .opened, v .clicked, v .failed⟩

@[simp] theorem ofTotals_ofFigures (v : Figure → UInt64) (x : Figure) :
    x.ofTotals (ofFigures v) = v x := by
  cases x <;> rfl

section Sums

variable {runs : List Stats} {p q : Performance} {r : Stats}

theorem eq_of_figures (same : ∀ x : Figure, x.ofTotals p = x.ofTotals q) : p = q := by
  obtain ⟨_, _, _, _, _⟩ := p
  obtain ⟨_, _, _, _, _⟩ := q
  cases same .sent
  cases same .delivered
  cases same .opened
  cases same .clicked
  cases same .failed
  rfl

theorem total_cons (figure : Stats → UInt64) (s : Stats) :
    total figure (s :: runs) = (figure s).toNat + total figure runs := rfl

/-- Each figure is larger by its sum over runs. -/
def Gains (p : Performance) (runs : List Stats) (q : Performance) : Prop :=
  ∀ x : Figure, (x.ofTotals p).toNat + total x.ofRun runs = (x.ofTotals q).toNat

theorem add?_eq_some_iff : p.add? r = some q ↔ p.Gains [r] q := by
  simp only [add?, Option.bind_eq_bind, Option.bind_eq_some_iff, Option.pure_def, Option.some.injEq,
    Decimal.plus?_eq_some_iff]
  constructor
  · rintro ⟨_, sent, _, delivered, _, opened, _, clicked, _, failed, rfl⟩ x
    cases x with
    | sent => exact sent
    | delivered => exact delivered
    | opened => exact opened
    | clicked => exact clicked
    | failed => exact failed
  · intro h
    exact ⟨_, h .sent, _, h .delivered, _, h .opened, _, h .clicked, _, h .failed, rfl⟩

/-- Runs are gained one after the other, the first of them exactly if there is room for all. -/
theorem gains_cons_iff : p.Gains (r :: runs) q ↔ ∃ p', p.Gains [r] p' ∧ p'.Gains runs q := by
  constructor
  · intro h
    have middle (x : Figure) : ∃ n : UInt64, (x.ofTotals p).toNat + (x.ofRun r).toNat = n.toNat := by
      have all := h x
      have small := (x.ofTotals q).toNat_lt
      rw [total_cons] at all
      exact Decimal.exists_toNat_eq_iff.mpr (by omega)
    choose v hv using middle
    refine ⟨ofFigures v, fun x ↦ ?_, fun x ↦ ?_⟩ <;> rw [ofTotals_ofFigures, ← hv]
    · rfl
    · rw [← h x, total_cons, Nat.add_assoc]
  · rintro ⟨p', first, rest⟩ x
    rw [← rest x, ← first x, Nat.add_assoc]
    rfl

/-- Runs are added up exactly if there is room for the sum of each figure. -/
theorem foldlM_add?_eq_some_iff : runs.foldlM add? p = some q ↔ p.Gains runs q := by
  induction runs generalizing p with
  | nil =>
    constructor
    · intro same
      cases same
      exact fun x ↦ rfl
    · intro h
      exact congrArg some (eq_of_figures fun x ↦ UInt64.toNat_inj.mp (h x))
  | cons r runs ih =>
    rw [List.foldlM_cons, Option.bind_eq_bind, Option.bind_eq_some_iff, gains_cons_iff]
    simp only [ih, add?_eq_some_iff]

/-- What is no larger in each run is no larger in sum. -/
theorem total_le {figure figure' : Stats → UInt64} (le : ∀ s ∈ runs, figure s ≤ figure' s) :
    total figure runs ≤ total figure' runs := by
  induction runs with
  | nil => exact Nat.le_refl _
  | cons s runs ih =>
    have first := UInt64.le_iff_toNat_le.mp (le s List.mem_cons_self)
    have rest := ih fun t ht ↦ le t (List.mem_cons_of_mem _ ht)
    simp only [total_cons]
    omega

/-- What was sent has arrived or failed, in sum too. -/
theorem total_sent (fit : ∀ s ∈ runs, s.Funnel) :
    total Stats.sent runs = total Stats.delivered runs + total Stats.failed runs := by
  induction runs with
  | nil => rfl
  | cons s runs ih =>
    have first := (fit s List.mem_cons_self).balance
    have rest := ih fun t ht ↦ fit t (List.mem_cons_of_mem _ ht)
    simp only [total_cons]
    omega

end Sums

/-- Totals that are the sums of the figures of runs, and that fit together as these do. -/
structure AddsUp (p : Performance) (runs : List Stats) : Prop where
  sent : p.sent.toNat = total Stats.sent runs
  delivered : p.delivered.toNat = total Stats.delivered runs
  opened : p.opened.toNat = total Stats.opened runs
  clicked : p.clicked.toNat = total Stats.clicked runs
  failed : p.failed.toNat = total Stats.failed runs
  balance : p.sent.toNat = p.delivered.toNat + p.failed.toNat
  clicked_le : p.clicked ≤ p.opened
  opened_le : p.opened ≤ p.delivered

/-- The totals of all runs are the sums of their figures. -/
theorem Gains.eq_total {runs : List Stats} {q : Performance} (h : zero.Gains runs q) (x : Figure) :
    (x.ofTotals q).toNat = total x.ofRun runs := by
  have begins : (x.ofTotals zero).toNat = 0 := by cases x <;> rfl
  rw [← h x, begins, Nat.zero_add]

/-- Totals of runs whose figures fit together add up. -/
theorem Gains.addsUp {runs : List Stats} {q : Performance} (fit : ∀ s ∈ runs, s.Funnel)
    (h : zero.Gains runs q) : q.AddsUp runs := by
  have sent : q.sent.toNat = _ := h.eq_total .sent
  have delivered : q.delivered.toNat = _ := h.eq_total .delivered
  have opened : q.opened.toNat = _ := h.eq_total .opened
  have clicked : q.clicked.toNat = _ := h.eq_total .clicked
  have failed : q.failed.toNat = _ := h.eq_total .failed
  refine ⟨sent, delivered, opened, clicked, failed, ?_, ?_, ?_⟩
  · rw [sent, delivered, failed]
    exact total_sent fit
  · rw [UInt64.le_iff_toNat_le, clicked, opened]
    exact total_le fun s hs ↦ (fit s hs).clicked_le
  · rw [UInt64.le_iff_toNat_le, opened, delivered]
    exact total_le fun s hs ↦ (fit s hs).opened_le

/-- Runs are added up exactly if there is room for the sum of each figure. -/
theorem exists_gains_iff {runs : List Stats} :
    (∃ q, zero.Gains runs q) ↔ ∀ x : Figure, total x.ofRun runs < 2 ^ 64 := by
  constructor
  · rintro ⟨q, h⟩ x
    rw [← h.eq_total x]
    exact (x.ofTotals q).toNat_lt
  · intro small
    choose v hv using fun x ↦ Decimal.exists_toNat_eq_iff.mpr (small x)
    refine ⟨ofFigures v, fun x ↦ ?_⟩
    have begins : (x.ofTotals zero).toNat = 0 := by cases x <;> rfl
    rw [ofTotals_ofFigures, ← hv, begins, Nat.zero_add]

/-- Where figures fit together, there is room for all sums if the messages that were sent can be
counted: the other figures are no larger. -/
theorem forall_total_lt_iff {runs : List Stats} (fit : ∀ s ∈ runs, s.Funnel) :
    (∀ x : Figure, total x.ofRun runs < 2 ^ 64) ↔ total Stats.sent runs < 2 ^ 64 := by
  refine ⟨fun small ↦ small .sent, fun small x ↦ lt_of_le_of_lt ?_ small⟩
  have whole := total_sent fit
  have opened_le : total Stats.opened runs ≤ total Stats.delivered runs :=
    total_le fun s hs ↦ (fit s hs).opened_le
  have clicked_le : total Stats.clicked runs ≤ total Stats.opened runs :=
    total_le fun s hs ↦ (fit s hs).clicked_le
  cases x with
  | sent => exact Nat.le_refl _
  | delivered => exact whole ▸ Nat.le_add_right _ _
  | opened => exact opened_le.trans (whole ▸ Nat.le_add_right _ _)
  | clicked => exact clicked_le.trans (opened_le.trans (whole ▸ Nat.le_add_right _ _))
  | failed => exact whole ▸ Nat.le_add_left _ _

/-! ## Percentages -/

/-- How a percentage comes about: there is none of nothing, and otherwise the whole that the part is
divided by is not zero as a double. -/
inductive Percentage (part whole : UInt64) : Float → Prop
  | ofNothing (nothing : whole = 0) : Percentage part whole 0.0
  | quotient (something : (whole.toFloat == 0.0) = false) :
    Percentage part whole (Decimal.roundCents (part.toFloat / whole.toFloat * 100.0))

theorem percentage_percent (part whole : UInt64) : Percentage part whole (percent part whole) := by
  unfold percent
  split
  · next nothing => exact .ofNothing nothing
  · next something => exact .quotient (Decimal.toFloat_beq_zero something)

/-- All rates are percentages. -/
structure Rated (p : Performance) : Prop where
  delivery : Percentage p.delivered p.sent p.deliveryRate
  opening : Percentage p.opened p.delivered p.openRate
  click : Percentage p.clicked p.opened p.clickRate

theorem rated (p : Performance) : p.Rated :=
  ⟨percentage_percent _ _, percentage_percent _ _, percentage_percent _ _⟩

end Performance

/-! ## The figures about campaigns -/

/-- There are figures exactly if the completed runs can be added up, and these are their totals. -/
theorem campaignFigures?_eq_some_iff {s : Store} {f : CampaignFigures} :
    s.campaignFigures? = some f ↔ Performance.zero.Gains s.completedRuns f.performance ∧
      f = ⟨s.campaigns.size, s.campaigns.rows.countP (·.status == .running),
        s.campaigns.rows.countP (·.status == .completed), f.performance,
        ((s.campaigns.rows.mergeSort madeLater).take digestCount).map Campaign.digest⟩ := by
  rw [campaignFigures?, Option.map_eq_some_iff]
  constructor
  · rintro ⟨p, added, rfl⟩
    exact ⟨Performance.foldlM_add?_eq_some_iff.mp added, rfl⟩
  · rintro ⟨gains, same⟩
    exact ⟨f.performance, Performance.foldlM_add?_eq_some_iff.mpr gains, same.symm⟩

theorem exists_campaignFigures?_iff {s : Store} :
    (∃ f, s.campaignFigures? = some f) ↔
      ∀ x : Figure, total x.ofRun s.completedRuns < 2 ^ 64 := by
  rw [← Performance.exists_gains_iff]
  constructor
  · rintro ⟨f, given⟩
    exact ⟨_, (campaignFigures?_eq_some_iff.mp given).1⟩
  · rintro ⟨p, gains⟩
    exact ⟨⟨_, _, _, p, _⟩, campaignFigures?_eq_some_iff.mpr ⟨gains, rfl⟩⟩

theorem Funnels.completedRuns {s : Store} (h : s.Funnels) : ∀ r ∈ s.completedRuns, r.Funnel := by
  intro r hr
  obtain ⟨c, hc, rfl⟩ := List.mem_map.mp hr
  exact h c (List.mem_filter.mp hc).1

end Outreach.Store

namespace Outreach.Crm

open Campaign (Stats)

/-- In every state that a history leads to from an empty store, whatever the shares of the stages are
said to be, the figures of each campaign form a funnel. As long as the messages of the completed
campaigns can be counted there are figures about the campaigns, and otherwise there are none; the
totals are those of the completed campaigns, and no percentage is taken of zero. -/
theorem history_figures (settings : Settings.Campaigns) (deeds : List Deed) :
    let s := (Crm.empty.history settings deeds).store
    (∀ c ∈ s.campaigns.rows, c.stats.Funnel) ∧
      ((∃ f, s.campaignFigures? = some f) ↔ Store.total Stats.sent s.completedRuns < 2 ^ 64) ∧
      ∀ f, s.campaignFigures? = some f →
        f.performance.AddsUp s.completedRuns ∧ f.performance.Rated := by
  intro s
  have begins : Crm.empty.store.Funnels := by simp [Store.Funnels, Crm.empty, Store.empty]
  have funnels : s.Funnels := funnels_history .empty deeds begins
  have runs := funnels.completedRuns
  refine ⟨funnels, ?_, fun f given ↦ ?_⟩
  · exact Store.exists_campaignFigures?_iff.trans (Store.Performance.forall_total_lt_iff runs)
  · have gains := (Store.campaignFigures?_eq_some_iff.mp given).1
    exact ⟨gains.addsUp runs, Store.Performance.rated _⟩

def careless : Settings.Campaigns := { Settings.Campaigns.usual with rates := ⟨1.5, 0.0 / 0.0, -1.0⟩ }

/-- A campaign is made for one customer, started and completed. -/
def oneRun : List Deed :=
  [.event (tick 1) (.command (.records (.createCustomer (newcomer "Ann" "ann@xeno.in")))),
    .event (tick 2) (.command (.create someone offer)),
    .event (tick 3) (.command (.start someone ⟨2⟩)),
    .event (tick 4) (.timer ⟨⟨2⟩, (tick 3).now, 5000⟩)]

theorem history_figures_oneRun :
    let s := (Crm.empty.history careless oneRun).store
    s.completedRuns = [⟨1, 1, 0, 0, 0, 0⟩] ∧ ∃ f, s.campaignFigures? = some f ∧
      f.performance.AddsUp s.completedRuns := by
  have runs : (Crm.empty.history careless oneRun).store.completedRuns = [⟨1, 1, 0, 0, 0, 0⟩] := by
    decide +kernel
  have small : Store.total Stats.sent (Crm.empty.history careless oneRun).store.completedRuns <
      2 ^ 64 := by
    rw [runs]
    decide
  obtain ⟨-, room, sums⟩ := history_figures careless oneRun
  obtain ⟨f, given⟩ := room.mpr small
  exact ⟨runs, f, given, (sums f given).1⟩

end Outreach.Crm
