import Outreach.Crm.Basic
import Outreach.Proofs.Calendar.Order

/-!
# What is done to campaigns

For each operation on campaigns, one statement says all that it can do: either it is refused and
leaves everything as it was, or the campaign stood where the operation is allowed, its record is
replaced, and one entry is written into the audit log.
-/

namespace Outreach

/-! ## Where operations are allowed -/

namespace Campaign.Status

variable {s s' : Status}

theorem after_start_eq_ok :
    s.after .start = .ok s' ↔ (s = .draft ∨ s = .scheduled) ∧ s' = .running := by
  cases s <;> simp [after, eq_comm]

theorem after_pause_eq_ok : s.after .pause = .ok s' ↔ s = .running ∧ s' = .paused := by
  cases s <;> simp [after, eq_comm]

theorem after_complete_eq_ok : s.after .complete = .ok s' ↔ s = .running ∧ s' = .completed := by
  cases s <;> simp [after, eq_comm]

theorem ensureEditable_eq_ok {u : Unit} :
    s.ensureEditable = .ok u ↔ s ≠ .running ∧ s ≠ .completed := by
  cases s <;> simp [ensureEditable]

theorem ensureDeletable_eq_ok {u : Unit} : s.ensureDeletable = .ok u ↔ s ≠ .running := by
  cases s <;> simp [ensureDeletable]

theorem isAssignable_iff :
    s.isAssignable = true ↔ s = .draft ∨ s = .scheduled ∨ s = .cancelled := by
  cases s <;> simp [isAssignable]

/-- An edit that gives no status, or one that may be given. -/
theorem forM_ensureAssignable_eq_ok {status : Option Status} {u : Unit} :
    status.forM ensureAssignable = .ok u ↔ ∀ s, status = some s → s.isAssignable = true := by
  cases status with
  | none => simp [pure, Except.pure]
  | some s => simp [ensureAssignable]

end Campaign.Status

/-! ## Records and entries -/

/-- The store after its campaigns have changed and the change has been written into the audit
log. -/
def Store.filed (s : Store) (stamp : Stamp) (user : String) (action : Audit.Action) (id : Id)
    (details : List (String × Json)) (campaigns : Table Campaign.id) : Store :=
  { s with campaigns }.recordCampaign stamp user action id details

section Filed

variable (s : Store) (stamp : Stamp) (user : String) (action : Audit.Action) (id : Id)
  (details : List (String × Json)) (campaigns : Table Campaign.id)

@[simp] theorem Store.campaigns_filed :
    (s.filed stamp user action id details campaigns).campaigns = campaigns := rfl

@[simp] theorem Store.audit_filed :
    (s.filed stamp user action id details campaigns).audit =
      s.audit ++ [⟨stamp.entryId, user, action, "campaign", id.text, .object details, stamp.now⟩] :=
  rfl

end Filed

namespace Crm

def campaign? (w : Crm) (id : Id) : Option Campaign := w.store.campaigns.find? id

theorem id_of_campaign? {w : Crm} {id : Id} {c : Campaign} (h : w.campaign? id = some c) :
    c.id = id := Table.key_of_find? h

/-! ## Beginnings of runs -/

section RunStart

variable {previous : Option Calendar.Instant} {now run : Calendar.Instant}

/-- A run begins after the run before it, whatever the clock shows. -/
theorem lt_of_runStart? (h : runStart? previous now = some run) :
    ∀ t, previous = some t → t < run := by
  rintro t rfl
  by_cases late : now.le t = true
  · simp only [runStart?, if_pos late] at h
    exact Calendar.Instant.lt_of_succ? h
  · simp only [runStart?, if_neg late] at h
    cases h
    exact not_le.mp late

/-- A run begins when the clock says, if the run before it began earlier. -/
theorem runStart?_of_lt (h : ∀ t, previous = some t → t < now) :
    runStart? previous now = some now := by
  cases previous with
  | none => rfl
  | some t => exact if_neg (not_le.mpr (h t rfl))

end RunStart

/-! ## Edits -/

section Edits

variable {r : Campaign.Edit} {size : List Rule → UInt64} {c : Campaign} {now : Calendar.Instant}

/-- The status after an edit is the one before or one that may be given. -/
theorem status_edited (assignable : ∀ s, r.status = some s → s.isAssignable = true) :
    (edited r size c now).status = c.status ∨
      (edited r size c now).status.isAssignable = true := by
  cases h : r.status with
  | none => exact .inl (by simp [edited, h])
  | some s => exact .inr (by simpa [edited, h] using assignable s h)

/-- A status that may not be given is one that a campaign had before an edit. -/
theorem status_of_edited {s : Campaign.Status}
    (assignable : ∀ s, r.status = some s → s.isAssignable = true)
    (h : (edited r size c now).status = s) (other : s.isAssignable = false) : c.status = s := by
  rcases status_edited (r := r) assignable with same | given
  · rw [← same]
    exact h
  · rw [h, other] at given
    cases given

end Edits

/-! ## Operations -/

variable (w : Crm) (settings : Settings.Campaigns) (stamp : Stamp) (user : User) (id : Id)

/-- A campaign is made, unless the request does not pass its checks. -/
theorem createCampaign_cases (r : Campaign.New) :
    (∃ f, w.createCampaign stamp user r = (.error f, w)) ∨
    let c := newCampaign r (audienceSize w.store r.audienceRules) user stamp
    w.createCampaign stamp user r =
      (.ok c, { w with
        store := w.store.filed stamp user.email .create stamp.id
          [("name", .text c.name), ("audienceSize", .ofCount c.audienceSize)]
          (w.store.campaigns.put c) }) := by
  unfold createCampaign
  cases r.check with
  | error f => exact .inl ⟨f, rfl⟩
  | ok _ => exact .inr rfl

/-- A campaign is edited if it neither runs nor has been completed, and gets only a status that may
be given. -/
theorem updateCampaign_cases (r : Campaign.Edit) :
    (∃ f, w.updateCampaign stamp user id r = (.error f, w)) ∨
    ∃ c, w.campaign? id = some c ∧ (c.status ≠ .running ∧ c.status ≠ .completed) ∧
      (∀ s, r.status = some s → s.isAssignable = true) ∧
      let c' := edited r (audienceSize w.store) c stamp.now
      w.updateCampaign stamp user id r =
        (.ok c', { w with
          store := w.store.filed stamp user.email .update id
            [("status", c'.status.toJson), ("audienceSize", .ofCount c'.audienceSize)]
            (w.store.campaigns.put c') }) := by
  unfold updateCampaign campaign?
  cases r.check with
  | error f => exact .inl ⟨f, rfl⟩
  | ok _ =>
    cases assignable : r.status.forM Campaign.Status.ensureAssignable with
    | error f => exact .inl ⟨f, rfl⟩
    | ok _ =>
      cases w.store.campaigns.find? id with
      | none => exact .inl ⟨_, rfl⟩
      | some c =>
        cases editable : c.status.ensureEditable with
        | error f => exact .inl ⟨f, by simp only [editable]⟩
        | ok _ =>
          refine .inr ⟨c, rfl, Campaign.Status.ensureEditable_eq_ok.mp editable,
            Campaign.Status.forM_ensureAssignable_eq_ok.mp assignable, ?_⟩
          simp only [editable]
          rfl

/-- A campaign is deleted unless it runs. -/
theorem deleteCampaign_cases :
    (∃ f, w.deleteCampaign stamp user id = (.error f, w)) ∨
    ∃ c, w.campaign? id = some c ∧ c.status ≠ .running ∧
      w.deleteCampaign stamp user id =
        (.ok (), { w with
          store := w.store.filed stamp user.email .delete id [("name", .text c.name)]
            (w.store.campaigns.erase id) }) := by
  unfold deleteCampaign campaign?
  cases w.store.campaigns.find? id with
  | none => exact .inl ⟨_, rfl⟩
  | some c =>
    cases deletable : c.status.ensureDeletable with
    | error f => exact .inl ⟨f, by simp only [deletable]⟩
    | ok _ =>
      refine .inr ⟨c, rfl, Campaign.Status.ensureDeletable_eq_ok.mp deletable, ?_⟩
      simp only [deletable]
      rfl

/-- A draft or scheduled campaign is started, and a timer is set for its run. -/
theorem startCampaign_cases :
    (∃ f, w.startCampaign settings stamp user id = (.error f, w)) ∨
    ∃ c run, w.campaign? id = some c ∧ (c.status = .draft ∨ c.status = .scheduled) ∧
      runStart? c.sentAt stamp.now = some run ∧
      let size := audienceSize w.store c.audienceRules
      let c' := started c .running size settings.rates run stamp.now
      w.startCampaign settings stamp user id =
        (.ok c',
          { store := w.store.filed stamp user.email .start id [("sent", .ofCount c'.stats.sent)]
              (w.store.campaigns.put c')
            schedule := w.schedule.arm id run settings.completionDelay }) := by
  unfold startCampaign campaign?
  cases w.store.campaigns.find? id with
  | none => exact .inl ⟨_, rfl⟩
  | some c =>
    cases allowed : c.status.after .start with
    | error f => exact .inl ⟨f, by simp only [allowed]⟩
    | ok status =>
      cases begins : runStart? c.sentAt stamp.now with
      | none => exact .inl ⟨.clockEnded, by simp only [allowed, begins]⟩
      | some run =>
        obtain ⟨startable, rfl⟩ := Campaign.Status.after_start_eq_ok.mp allowed
        refine .inr ⟨c, run, rfl, startable, begins, ?_⟩
        simp only [allowed, begins]
        rfl

/-- A running campaign is paused, and its timer is left. -/
theorem pauseCampaign_cases :
    (∃ f, w.pauseCampaign stamp user id = (.error f, w)) ∨
    ∃ c, w.campaign? id = some c ∧ c.status = .running ∧
      let c' := { c with status := .paused, updatedAt := stamp.now }
      w.pauseCampaign stamp user id =
        (.ok c', { w with
          store := w.store.filed stamp user.email .pause id [] (w.store.campaigns.put c') }) := by
  unfold pauseCampaign campaign?
  cases w.store.campaigns.find? id with
  | none => exact .inl ⟨_, rfl⟩
  | some c =>
    cases allowed : c.status.after .pause with
    | error f => exact .inl ⟨f, by simp only [allowed]⟩
    | ok status =>
      obtain ⟨running, rfl⟩ := Campaign.Status.after_pause_eq_ok.mp allowed
      refine .inr ⟨c, rfl, running, ?_⟩
      simp only [allowed]
      rfl

/-- The record of a campaign whose run has been completed. -/
def completed (c : Campaign) (now : Calendar.Instant) : Campaign :=
  { c with status := .completed, completedAt := some now, updatedAt := now }

/-- A timer completes the run that it was set for and does nothing otherwise. -/
theorem completeRun_cases (s : Store) (run : Calendar.Instant) :
    completeRun s stamp id run = (false, s) ∧
      (∀ c, s.campaigns.find? id = some c → c.sentAt = some run → c.status ≠ .running) ∨
    ∃ c, s.campaigns.find? id = some c ∧ c.sentAt = some run ∧ c.status = .running ∧
      completeRun s stamp id run =
        (true, s.filed stamp completer .complete id []
          (s.campaigns.put (completed c stamp.now))) := by
  unfold completeRun
  cases s.campaigns.find? id with
  | none => exact .inl ⟨rfl, by simp⟩
  | some c =>
    by_cases current : c.sentAt = some run
    · simp only [if_neg (not_not_intro current)]
      cases allowed : c.status.after .complete with
      | error f =>
        refine .inl ⟨rfl, ?_⟩
        rintro _ ⟨⟩ - running
        rw [Campaign.Status.after_complete_eq_ok.mpr ⟨running, rfl⟩] at allowed
        cases allowed
      | ok status =>
        obtain ⟨running, rfl⟩ := Campaign.Status.after_complete_eq_ok.mp allowed
        exact .inr ⟨c, rfl, current, running, rfl⟩
    · refine .inl ⟨by simp only [if_pos current], ?_⟩
      rintro _ ⟨⟩ now
      exact absurd now current

end Crm

end Outreach
