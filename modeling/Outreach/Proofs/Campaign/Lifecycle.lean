import Outreach.Proofs.Crm.Run

/-!
# The life of a campaign in a run

Over every run, with any number of campaigns and timers, the status of a campaign changes only as
its life allows, a running campaign is neither edited nor deleted, and a completed one stays as it
is until it is deleted. If the clock advances from event to event, the fields of a campaign that
tell of its runs agree with its status in every state.
-/

namespace Outreach.Crm

open Calendar
open Campaign (Timer)

/-! ## Changes of status -/

/-- The changes of the status of a campaign with an identity that an event may cause. -/
inductive StatusChange (id : Id) (c : Campaign) : Event → Campaign.Status → Prop where
  | start (user : User) (h : c.status = .draft ∨ c.status = .scheduled) :
      StatusChange id c (.command (.start user id)) .running
  | pause (user : User) (h : c.status = .running) :
      StatusChange id c (.command (.pause user id)) .paused
  /-- A running campaign is completed by the timer of its run. -/
  | complete (t : Timer) (here : t.campaign = id) (current : c.sentAt = some t.run)
      (h : c.status = .running) : StatusChange id c (.timer t) .completed
  /-- An edit moves a campaign among the statuses that are edited to one that may be given. -/
  | update (user : User) (r : Campaign.Edit) {s : Campaign.Status}
      (h : c.status = .draft ∨ c.status = .scheduled ∨ c.status = .paused ∨ c.status = .cancelled)
      (h' : s = .draft ∨ s = .scheduled ∨ s = .cancelled) :
      StatusChange id c (.command (.update user id r)) s

/-- An event treats a campaign as its life allows: `x` is what is there after the event. -/
structure Lawful (id : Id) (e : Event) (c : Campaign) (x : Option Campaign) : Prop where
  status : ∀ c', x = some c' → c'.status ≠ c.status → StatusChange id c e c'.status
  /-- A running campaign is neither edited nor deleted: it stays as it is, or it is paused or
  completed by the timer of its run. -/
  running : c.status = .running → x = some c ∨
    ∃ c', x = some c' ∧ (c'.status = .paused ∧ (∃ user, e = .command (.pause user id)) ∨
      c'.status = .completed ∧ ∃ t, e = .timer t ∧ t.campaign = id ∧ c.sentAt = some t.run)
  /-- A completed campaign stays as it is in every field, or it is deleted. -/
  completed : c.status = .completed →
    x = some c ∨ x = none ∧ ∃ user, e = .command (.delete user id)

theorem Lawful.stay (id : Id) (e : Event) (c : Campaign) : Lawful id e c (some c) where
  status := by
    rintro _ ⟨⟩ h
    exact absurd rfl h
  running _ := .inl rfl
  completed _ := .inl rfl

/-- Every move of a campaign is lawful, unless it overwrites the campaign by a new one. -/
theorem Move.lawful {id : Id} {stamp : Stamp} {e : Event} {c : Campaign} {x : Option Campaign}
    (h : Move id stamp e (some c) x) (other : madeBy (stamp, e) ≠ some id) : Lawful id e c x := by
  cases h with
  | stay => exact .stay id e c
  | create user r size _ here => exact absurd (congrArg some here) other
  | update user r size editable assignable =>
    constructor
    · rintro _ ⟨⟩ changed
      have given := (status_edited assignable).resolve_left changed
      apply StatusChange.update user r
      · revert editable
        cases c.status <;> simp
      · exact Campaign.Status.isAssignable_iff.mp given
    · intro running
      exact absurd running editable.1
    · intro completed
      exact absurd completed editable.2
  | delete user deletable =>
    constructor
    · intro c' gone
      cases gone
    · intro running
      exact absurd running deletable
    · intro _
      exact .inr ⟨rfl, user, rfl⟩
  | start user size rates startable begins =>
    constructor
    · rintro _ ⟨⟩ -
      exact .start user startable
    · intro running
      simp [running] at startable
    · intro completed
      simp [completed] at startable
  | pause user running =>
    constructor
    · rintro _ ⟨⟩ -
      exact .pause user running
    · intro _
      exact .inr ⟨_, rfl, .inl ⟨rfl, user, rfl⟩⟩
    · intro completed
      rw [running] at completed
      cases completed
  | complete t here current running =>
    constructor
    · rintro _ ⟨⟩ -
      exact .complete t here current running
    · intro _
      exact .inr ⟨_, rfl, .inr ⟨rfl, t, rfl, here, current⟩⟩
    · intro completed
      rw [running] at completed
      cases completed

/-! ## Fields that tell of runs -/

/-- The fields of a campaign that tell of its runs agree with its status. -/
structure Sound (c : Campaign) : Prop where
  /-- The completed campaigns are those with a time of completion. -/
  completedAt_isSome : c.completedAt.isSome = true ↔ c.status = .completed
  /-- A campaign that runs, is paused or has been completed has a beginning of its run. -/
  sentAt_isSome : c.status = .running ∨ c.status = .paused ∨ c.status = .completed →
    c.sentAt.isSome = true
  /-- What a run has sent is the size of the audience. -/
  sent_eq : c.status = .running ∨ c.status = .completed → c.stats.sent = c.audienceSize
  sentAt_lt : ∀ t, c.completedAt = some t → ∃ s, c.sentAt = some s ∧ s < t

theorem Sound.completedAt_eq_none {c : Campaign} (h : Sound c) (other : c.status ≠ .completed) :
    c.completedAt = none := by
  rw [← Option.not_isSome_iff_eq_none, h.completedAt_isSome]
  exact other

/-- Away from runs and completions, a campaign is sound that has not been completed, and that has a
beginning of its run if it is paused. -/
theorem Sound.of_idle {c : Campaign} (blank : c.completedAt = none) (resting : c.status ≠ .running)
    (unfinished : c.status ≠ .completed) (begun : c.status = .paused → c.sentAt.isSome = true) :
    Sound c where
  completedAt_isSome := by simp [blank, unfinished]
  sentAt_isSome h := begun ((h.resolve_left resting).resolve_right unfinished)
  sent_eq h := (h.elim resting unfinished).elim
  sentAt_lt t h := by simp [blank] at h

variable {id : Id} {stamp : Stamp} {e : Event} {c c' : Campaign} {x : Option Campaign}

/-- A campaign that an event makes is sound, and so is one that was sound before the event and whose
run began before it; and no run begins after the event. -/
theorem Move.sound (h : Move id stamp e x (some c'))
    (before : ∀ c, x = some c → Sound c ∧ ∀ s, c.sentAt = some s → s < stamp.now) :
    Sound c' ∧ ∀ s, c'.sentAt = some s → s ≤ stamp.now := by
  cases h with
  | stay =>
    obtain ⟨sound, past⟩ := before c' rfl
    refine ⟨sound, ?_⟩
    intro s hs
    exact le_of_lt (past s hs)
  | create user r size _ here =>
    constructor
    · apply Sound.of_idle rfl <;> simp [newCampaign]
    · simp [newCampaign]
  | @update user r size c editable assignable =>
    obtain ⟨sound, past⟩ := before c rfl
    constructor
    · apply Sound.of_idle
      · exact sound.completedAt_eq_none editable.2
      · intro running
        exact editable.1 (status_of_edited assignable running rfl)
      · intro completed
        exact editable.2 (status_of_edited assignable completed rfl)
      · intro paused
        exact sound.sentAt_isSome (.inr (.inl (status_of_edited assignable paused rfl)))
    · intro s hs
      exact le_of_lt (past s hs)
  | @start user size rates c run startable begins =>
    obtain ⟨sound, past⟩ := before c rfl
    rw [runStart?_of_lt past] at begins
    cases begins
    constructor
    · exact ⟨by simp [started], fun _ ↦ rfl, fun _ ↦ rfl, by simp [started]⟩
    · rintro _ ⟨⟩
      exact le_rfl
  | @pause user c running =>
    obtain ⟨sound, past⟩ := before c rfl
    constructor
    · apply Sound.of_idle
      · exact sound.completedAt_eq_none (by simp [running])
      · simp
      · simp
      · intro _
        exact sound.sentAt_isSome (.inl running)
    · intro s hs
      exact le_of_lt (past s hs)
  | @complete t c here current running =>
    obtain ⟨sound, past⟩ := before c rfl
    constructor
    · constructor
      · simp [completed]
      · intro _
        exact sound.sentAt_isSome (.inl running)
      · intro _
        exact sound.sent_eq (.inl running)
      · rintro _ ⟨⟩
        exact ⟨t.run, current, past _ current⟩
    · intro s hs
      exact le_of_lt (past s hs)

variable {settings : Settings.Campaigns}

/-- If the clock advances from event to event, a place that holds nothing or a sound campaign whose
run began before all events to come holds such a campaign, or nothing, after them. -/
theorem sound_run {events : List (Stamp × Event)} {w : Crm}
    (ticking : (events.map (·.1.now)).Pairwise (· < ·))
    (before : ∀ c, w.campaign? id = some c →
      Sound c ∧ ∀ s, c.sentAt = some s → ∀ e ∈ events, s < e.1.now) :
    ∀ c, (w.run settings events).campaign? id = some c → Sound c := by
  induction events generalizing w with
  | nil => exact fun c hc ↦ (before c hc).1
  | cons e events ih =>
    obtain ⟨first, ticking⟩ := List.pairwise_cons.mp ticking
    refine ih ticking fun c' hc' ↦ ?_
    have move := move_after settings w e.1 id e.2
    rw [hc'] at move
    obtain ⟨sound, past⟩ := move.sound fun c hc ↦
      ⟨(before c hc).1, fun s hs ↦ (before c hc).2 s hs e List.mem_cons_self⟩
    refine ⟨sound, fun s hs f hf ↦ ?_⟩
    exact lt_of_le_of_lt (past s hs) (first _ (List.mem_map_of_mem hf))

/-! ## All runs -/

/-- In every run under a clock that advances from event to event, each event treats each campaign as
its life allows, and in the state after the run every campaign that the run has made is sound. -/
theorem run_lawful_sound (settings : Settings.Campaigns) (w : Crm) (events : List (Stamp × Event))
    (fresh : Fresh w events) (ticking : (events.map (·.1.now)).Pairwise (· < ·)) :
    (∀ past stamp e future, events = past ++ (stamp, e) :: future →
      ∀ id c, (w.run settings past).campaign? id = some c →
        Lawful id e c (((w.run settings past).after settings stamp e).campaign? id)) ∧
    ∀ id ∈ made events, ∀ c, (w.run settings events).campaign? id = some c → Sound c := by
  constructor
  · rintro past stamp e future rfl id c hc
    have move := move_after settings (w.run settings past) stamp id e
    rw [hc] at move
    refine move.lawful fun same ↦ ?_
    have coming : id ∈ made ((stamp, e) :: future) :=
      List.mem_filterMap.mpr ⟨_, List.mem_cons_self, same⟩
    have fresh' : Fresh (w.run settings past) ((stamp, e) :: future) := fresh.right
    exact fresh'.notMem_made hc coming
  · intro id hid
    refine sound_run ticking fun c hc ↦ ?_
    rw [fresh.unknown id hid] at hc
    cases hc

/-- The campaign whose run was broken off is sound when its second run has been completed. -/
theorem run_lawful_sound_twoRuns :
    Fresh .empty twoRuns ∧ (twoRuns.map (·.1.now)).Pairwise (· < ·) ∧
      ∃ c, (Crm.empty.run .usual twoRuns).campaign? ⟨1⟩ = some c ∧ c.status = .completed ∧ Sound c := by
  have ticking : (twoRuns.map (·.1.now)).Pairwise (· < ·) := by decide
  have done : ((Crm.empty.run .usual twoRuns).campaign? ⟨1⟩).map (·.status) = some .completed := by
    decide
  obtain ⟨c, hc, status⟩ := Option.map_eq_some_iff.mp done
  obtain ⟨-, sound⟩ := run_lawful_sound .usual .empty twoRuns fresh_twoRuns ticking
  exact ⟨fresh_twoRuns, ticking, c, hc, status, sound ⟨1⟩ (by decide) c hc⟩

end Outreach.Crm
