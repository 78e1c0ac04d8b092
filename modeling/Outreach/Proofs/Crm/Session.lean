import Outreach.Proofs.Campaign.Timers
import Outreach.Proofs.Identity

/-!
# Sessions

In a session, commands of users alternate with stretches of time, in which the timers that fall due
go off one after the other. A stretch of time is thus a run of its own, and what it does to one
campaign is told in two statements: if no timer that falls due belongs to a run of the campaign that
goes on, the campaign stays as it is and no completion of it is logged (`advance_elsewhere`); and if
one does, the campaign is completed, which is logged once (`advance_here`).
-/

namespace Outreach

open Campaign (Timer)

theorem Campaign.Schedule.mem_dueWithin {s : Campaign.Schedule} {ms : Nat} {t : Timer} :
    t ∈ s.dueWithin ms ↔ t ∈ s.pending ∧ t.due ≤ s.clock + ms := by
  simp [dueWithin]

namespace Crm

/-! ## Stretches of time -/

/-- What happens in a session. -/
inductive Occasion where
  | command (stamp : Stamp) (c : Command)
  | advance (stamps : Nat → Stamp) (ms : Nat)

def pass (settings : Settings.Campaigns) (w : Crm) : Occasion → Crm
  | .command stamp c => w.obey settings stamp c
  | .advance stamps ms => w.advance stamps ms

def live (settings : Settings.Campaigns) (w : Crm) (occasions : List Occasion) : Crm :=
  occasions.foldl (pass settings) w

/-- The commands of a session, as events. -/
def commands (occasions : List Occasion) : List (Stamp × Event) :=
  occasions.filterMap fun
    | .command stamp c => some (stamp, .command c)
    | .advance _ _ => none

/-- Timers that go off one after the other; the first number counts the stamps that have been used.
-/
def firings (stamps : Nat → Stamp) : Nat → List Timer → List (Stamp × Event)
  | _, [] => []
  | n, t :: ts => (stamps n, .timer t) :: firings stamps (n + 1) ts

variable {settings : Settings.Campaigns} {w : Crm} {stamp : Stamp} {id : Id}
  {stamps : Nat → Stamp} {n ms : Nat} {ts : List Timer}

@[simp] theorem live_nil (w : Crm) : w.live settings [] = w := rfl

@[simp] theorem live_cons (w : Crm) (o : Occasion) (occasions : List Occasion) :
    w.live settings (o :: occasions) = (w.pass settings o).live settings occasions := rfl

theorem live_append (w : Crm) (os ps : List Occasion) :
    w.live settings (os ++ ps) = (w.live settings os).live settings ps := List.foldl_append

theorem commands_append (os ps : List Occasion) :
    commands (os ++ ps) = commands os ++ commands ps := List.filterMap_append

@[simp] theorem made_firings : made (firings stamps n ts) = [] := by
  induction ts generalizing n with
  | nil => rfl
  | cons t ts ih => exact ih

/-- The store after a stretch of time is the one after the run in which the timers go off. -/
theorem store_run_firings (settings : Settings.Campaigns) (w : Crm) :
    (w.run settings (firings stamps n ts)).store = fire stamps n ts w.store := by
  induction ts generalizing n w with
  | nil => rfl
  | cons t ts ih => exact ih _

theorem campaign?_advance (settings : Settings.Campaigns) (w : Crm) :
    (w.advance stamps ms).campaign? id =
      (w.run settings (firings stamps 0 (w.schedule.dueWithin ms))).campaign? id := by
  rw [campaign?, campaign?, store_run_firings]
  rfl

/-! ## Completions in the audit log -/

/-- How many entries of a log tell of a completion of a campaign. -/
def completionEntries (id : Id) (log : List Audit.Entry) : Nat :=
  log.countP fun e ↦
    e.action = .complete ∧ e.resourceType = "campaign" ∧ e.resourceId = id.text

/-- From one state to another, a number of completions of a campaign are logged, and nothing that
was in the log before is lost. -/
def Logs (id : Id) (n : Nat) (w w' : Crm) : Prop :=
  ∃ entries, w'.store.audit = w.store.audit ++ entries ∧ completionEntries id entries = n

theorem Logs.refl (id : Id) (w : Crm) : Logs id 0 w w := ⟨[], by simp, rfl⟩

theorem Logs.of_store_eq {w' : Crm} (h : w'.store = w.store) : Logs id 0 w w' :=
  ⟨[], by simp [h], rfl⟩

theorem Logs.trans {w' w'' : Crm} {m : Nat} (h : Logs id n w w') (h' : Logs id m w' w'') :
    Logs id (n + m) w w'' := by
  obtain ⟨es, audit, rfl⟩ := h
  obtain ⟨fs, audit', rfl⟩ := h'
  exact ⟨es ++ fs, by rw [audit', audit, List.append_assoc], List.countP_append⟩

/-- An entry that is filed with the campaigns counts if it is a completion of the campaign. -/
theorem Logs.of_filed (id : Id) {w' : Crm} {user : String} {action : Audit.Action} {key : Id}
    {details : List (String × Json)} {campaigns : Table Campaign.id}
    (h : w'.store = w.store.filed stamp user action key details campaigns) :
    Logs id (if action = .complete ∧ key = id then 1 else 0) w w' := by
  refine ⟨_, by rw [h, Store.audit_filed], ?_⟩
  simp [completionEntries, List.countP_cons, Id.text_injective.eq_iff]

/-- Commands complete nothing. -/
theorem logs_obey (settings : Settings.Campaigns) (w : Crm) (stamp : Stamp) (id : Id)
    (c : Command) : Logs id 0 w (w.obey settings stamp c) := by
  cases c with
  | records c => exact ⟨[], by simp [obey, (w.store.obey_frame stamp c).2], rfl⟩
  | create user r =>
    rcases w.createCampaign_cases stamp user r with ⟨f, h⟩ | h
    · exact .of_store_eq (congrArg (·.2.store) h)
    · simpa [obey] using Logs.of_filed id (congrArg (·.2.store) h)
  | update user key r =>
    rcases w.updateCampaign_cases stamp user key r with ⟨f, h⟩ | ⟨c, -, -, -, h⟩
    · exact .of_store_eq (congrArg (·.2.store) h)
    · simpa [obey] using Logs.of_filed id (congrArg (·.2.store) h)
  | delete user key =>
    rcases w.deleteCampaign_cases stamp user key with ⟨f, h⟩ | ⟨c, -, -, h⟩
    · exact .of_store_eq (congrArg (·.2.store) h)
    · simpa [obey] using Logs.of_filed id (congrArg (·.2.store) h)
  | start user key =>
    rcases w.startCampaign_cases settings stamp user key with ⟨f, h⟩ | ⟨c, run, -, -, -, h⟩
    · exact .of_store_eq (congrArg (·.2.store) h)
    · simpa [obey] using Logs.of_filed id (congrArg (·.2.store) h)
  | pause user key =>
    rcases w.pauseCampaign_cases stamp user key with ⟨f, h⟩ | ⟨c, -, -, h⟩
    · exact .of_store_eq (congrArg (·.2.store) h)
    · simpa [obey] using Logs.of_filed id (congrArg (·.2.store) h)

/-! ## Timers that go off in a stretch of time -/

/-- A campaign is completed, and the run that was completed began at an instant. -/
def IsCompleted (begun : Calendar.Instant) (x : Option Campaign) : Prop :=
  ∃ c, x = some c ∧ c.status = .completed ∧ c.sentAt = some begun

theorem IsCompleted.not_goesOn {begun other : Calendar.Instant} {x : Option Campaign}
    (h : IsCompleted begun x) : ¬GoesOn other x := by
  obtain ⟨c, rfl, status, -⟩ := h
  rintro ⟨_, ⟨⟩, running, -⟩
  rw [status] at running
  cases running

/-- The timer of a run that goes on completes it, which is logged once. -/
theorem goOff_here (stamp : Stamp) {t : Timer} (h : GoesOn t.run (w.campaign? t.campaign)) :
    IsCompleted t.run ((w.goOff stamp t).campaign? t.campaign) ∧
      Logs t.campaign 1 w (w.goOff stamp t) := by
  refine ⟨goOff_of_goesOn stamp h, ?_⟩
  obtain ⟨c, found, running, current⟩ := h
  rcases completeRun_cases stamp t.campaign w.store t.run with ⟨-, idle⟩ | ⟨c', -, -, -, h⟩
  · exact absurd running (idle c found current)
  · have filed : (w.goOff stamp t).store = _ := congrArg Prod.snd h
    simpa using Logs.of_filed t.campaign filed

/-- Any other timer leaves the campaign as it is, and no completion of it is logged. -/
theorem goOff_elsewhere (stamp : Stamp) {t : Timer}
    (h : t.campaign = id → ¬GoesOn t.run (w.campaign? id)) :
    (w.goOff stamp t).campaign? id = w.campaign? id ∧ Logs id 0 w (w.goOff stamp t) := by
  by_cases here : t.campaign = id
  · subst here
    have same := goOff_of_not_goesOn stamp (h rfl)
    exact ⟨by rw [campaign?, same, campaign?], .of_store_eq same⟩
  · constructor
    · have move := move_goOff w stamp id t
      revert move
      generalize w.campaign? id = x, (w.goOff stamp t).campaign? id = y
      intro move
      cases move with
      | stay => rfl
      | complete _ here' _ _ => exact absurd here' here
    · rcases completeRun_cases stamp t.campaign w.store t.run with ⟨idle, -⟩ | ⟨c, -, -, -, h⟩
      · exact .of_store_eq (congrArg Prod.snd idle)
      · have filed : (w.goOff stamp t).store = _ := congrArg Prod.snd h
        simpa [here] using Logs.of_filed id filed

/-- Timers that belong to no run of a campaign that goes on leave the campaign as it is. -/
theorem firings_elsewhere (settings : Settings.Campaigns) (stamps : Nat → Stamp) (n : Nat)
    (h : ∀ t ∈ ts, t.campaign = id → ¬GoesOn t.run (w.campaign? id)) :
    (w.run settings (firings stamps n ts)).campaign? id = w.campaign? id ∧
      Logs id 0 w (w.run settings (firings stamps n ts)) := by
  induction ts generalizing n w with
  | nil => exact ⟨rfl, .refl id w⟩
  | cons t ts ih =>
    obtain ⟨same, logs⟩ := goOff_elsewhere (stamps n) (h t List.mem_cons_self)
    have later : ∀ u ∈ ts, u.campaign = id →
        ¬GoesOn u.run ((w.goOff (stamps n) t).campaign? id) := by
      rw [same]
      exact fun u hu ↦ h u (List.mem_cons_of_mem _ hu)
    obtain ⟨same', logs'⟩ := ih (n + 1) later
    exact ⟨same'.trans same, logs.trans logs'⟩

/-- If the timer of a run that goes on is among those that go off, the run is completed, and this is
logged once. -/
theorem firings_here (settings : Settings.Campaigns) (stamps : Nat → Stamp) (n : Nat) {t : Timer}
    (ht : t ∈ ts) (h : GoesOn t.run (w.campaign? t.campaign)) :
    IsCompleted t.run ((w.run settings (firings stamps n ts)).campaign? t.campaign) ∧
      Logs t.campaign 1 w (w.run settings (firings stamps n ts)) := by
  induction ts generalizing n w with
  | nil => cases ht
  | cons u ts ih =>
    by_cases own : u.campaign = t.campaign ∧ u.run = t.run
    · -- This timer completes the run, and nothing is left to be done by those behind it.
      rw [← own.1, ← own.2] at h ⊢
      obtain ⟨done, logs⟩ := goOff_here (stamps n) h
      have others : ∀ v ∈ ts, v.campaign = u.campaign →
          ¬GoesOn v.run ((w.goOff (stamps n) u).campaign? u.campaign) :=
        fun v _ _ ↦ done.not_goesOn
      obtain ⟨same, logs'⟩ := firings_elsewhere settings stamps (n + 1) others
      rw [firings, run_cons]
      exact ⟨same ▸ done, logs.trans logs'⟩
    · have passes : u.campaign = t.campaign → ¬GoesOn u.run (w.campaign? t.campaign) :=
        fun here goesOn ↦ own ⟨here, goesOn.unique h⟩
      obtain ⟨same, logs⟩ := goOff_elsewhere (stamps n) passes
      have later : t ∈ ts := by
        rcases List.mem_cons.mp ht with rfl | later
        · exact absurd ⟨rfl, rfl⟩ own
        · exact later
      obtain ⟨done, logs'⟩ := ih (n + 1) later (same ▸ h)
      rw [firings, run_cons]
      exact ⟨done, Nat.zero_add 1 ▸ logs.trans logs'⟩

theorem Logs.of_run {m : Nat}
    (h : Logs id m w (w.run settings (firings stamps 0 (w.schedule.dueWithin ms)))) :
    Logs id m w (w.advance stamps ms) := by
  obtain ⟨entries, audit, count⟩ := h
  rw [store_run_firings] at audit
  exact ⟨entries, audit, count⟩

/-- A stretch of time in which no timer of a run of the campaign that goes on falls due leaves the
campaign as it is. -/
theorem advance_elsewhere (stamps : Nat → Stamp)
    (h : ∀ t ∈ w.schedule.pending, t.due ≤ w.schedule.clock + ms → t.campaign = id →
      ¬GoesOn t.run (w.campaign? id)) :
    (w.advance stamps ms).campaign? id = w.campaign? id ∧ Logs id 0 w (w.advance stamps ms) := by
  have others : ∀ t ∈ w.schedule.dueWithin ms, t.campaign = id →
      ¬GoesOn t.run (w.campaign? id) := by
    intro t ht
    obtain ⟨pending, due⟩ := Campaign.Schedule.mem_dueWithin.mp ht
    exact h t pending due
  obtain ⟨same, logs⟩ := firings_elsewhere .usual stamps 0 others
  exact ⟨(campaign?_advance .usual w).trans same, logs.of_run⟩

/-- A stretch of time in which the timer of a run that goes on falls due completes that run. -/
theorem advance_here (stamps : Nat → Stamp) {t : Timer} (ht : t ∈ w.schedule.pending)
    (due : t.due ≤ w.schedule.clock + ms) (h : GoesOn t.run (w.campaign? t.campaign)) :
    IsCompleted t.run ((w.advance stamps ms).campaign? t.campaign) ∧
      Logs t.campaign 1 w (w.advance stamps ms) := by
  have among : t ∈ w.schedule.dueWithin ms := Campaign.Schedule.mem_dueWithin.mpr ⟨ht, due⟩
  obtain ⟨done, logs⟩ := firings_here .usual stamps 0 among h
  exact ⟨campaign?_advance .usual w ▸ done, logs.of_run⟩

end Crm

end Outreach
