import Mathlib.Data.List.Induction
import Mathlib.Data.List.Infix
import Outreach.Proofs.Campaign.Lifecycle
import Outreach.Proofs.Crm.Session

/-!
# Punctual completions

In every session, each running campaign has exactly one timer that carries the beginning of its run.
So a run that is not paused is completed once, and neither before nor after its timer falls due,
however time is split into stretches and whatever happens to other campaigns.

The invariant of sessions is `Timed`. Besides counting timers, it tells that the run of a timer goes
on or is over: the run of a campaign that is about to be started is neither, so that no timer
carries its beginning yet.
-/

namespace Outreach

open Calendar
open Campaign (Timer Schedule)

/-! ## Timers of one run -/

namespace Campaign.Schedule

/-- How many timers are set for the run of a campaign that began at an instant. -/
def timersOf (s : Schedule) (id : Id) (begun : Instant) : Nat :=
  s.pending.countP fun t ↦ t.campaign = id ∧ t.run = begun

variable {s : Schedule} {id : Id} {begun : Instant}

/-- If a run has a single timer, then timers of that run are the same. -/
theorem eq_of_timersOf_eq_one {t u : Timer} (h : s.timersOf t.campaign t.run = 1)
    (ht : t ∈ s.pending) (hu : u ∈ s.pending) (here : u.campaign = t.campaign)
    (current : u.run = t.run) : u = t := by
  rw [timersOf, List.countP_eq_length_filter] at h
  obtain ⟨v, hv⟩ := List.length_eq_one_iff.mp h
  have single : ∀ x ∈ s.pending, x.campaign = t.campaign → x.run = t.run → x = v := by
    intro x hx hc hr
    have : x ∈ [v] := hv ▸ List.mem_filter.mpr ⟨hx, by simp [hc, hr]⟩
    exact List.mem_singleton.mp this
  rw [single u hu here current, single t ht rfl rfl]

theorem timersOf_arm (s : Schedule) (key : Id) (run : Instant) (delay : UInt64) :
    (s.arm key run delay).timersOf id begun =
      s.timersOf id begun + if key = id ∧ run = begun then 1 else 0 := by
  simp [timersOf, arm, List.countP_append, List.countP_cons]

theorem timersOf_eq_zero (h : ∀ t ∈ s.pending, t.campaign = id → t.run ≠ begun) :
    s.timersOf id begun = 0 := by
  refine List.countP_eq_zero.mpr fun t ht ↦ ?_
  simpa using h t ht

/-- A run none of whose timers falls due keeps all of them. -/
theorem timersOf_elapse {ms : Nat}
    (h : ∀ t ∈ s.pending, t.campaign = id → t.run = begun → s.clock + ms < t.due) :
    (s.elapse ms).timersOf id begun = s.timersOf id begun := by
  rw [timersOf, timersOf, elapse, List.countP_filter]
  refine List.countP_congr fun t ht ↦ ?_
  simp only [Bool.and_eq_true, decide_eq_true_eq, and_iff_left_iff_imp]
  exact fun own ↦ h t ht own.1 own.2

end Campaign.Schedule

namespace Crm

variable {settings : Settings.Campaigns} {w : Crm} {stamp : Stamp} {id : Id} {begun : Instant}

/-! ## Runs that begin -/

/-- A campaign that runs after an event ran before, and the event has left it as it is, unless the
event has started it. -/
theorem Move.running {e : Event} {x : Option Campaign} {c : Campaign}
    (h : Move id stamp e x (some c)) (running : c.status = .running) :
    x = some c ∨ ∃ user, e = .command (.start user id) := by
  cases h with
  | stay => exact .inl rfl
  | create user r size _ here => cases running
  | update user r size editable assignable =>
    exact absurd (status_of_edited assignable running rfl) editable.1
  | start user size rates startable begins => exact .inr ⟨user, rfl⟩
  | pause user _ => cases running
  | complete t here current _ => cases running

/-- A command starts a campaign, or it leaves the schedule as it is and no run begins. -/
theorem obey_cases (settings : Settings.Campaigns) (w : Crm) (stamp : Stamp) (c : Command) :
    (∃ user id begun, c = .start user id ∧ Starts settings w stamp user id begun) ∨
      (w.obey settings stamp c).schedule = w.schedule ∧
        ∀ id d, (w.obey settings stamp c).campaign? id = some d → d.status = .running →
          w.campaign? id = some d := by
  have other (h : ∀ user id, c ≠ .start user id) : ∀ id d,
      (w.obey settings stamp c).campaign? id = some d → d.status = .running →
        w.campaign? id = some d := by
    intro id d hd running
    have move := move_obey settings w stamp id c
    rw [hd] at move
    refine (move.running running).resolve_right ?_
    rintro ⟨user, started⟩
    cases started
    exact h user id rfl
  cases c with
  | records c => exact .inr ⟨rfl, other (by simp)⟩
  | create user r =>
    refine .inr ⟨?_, other (by simp)⟩
    rcases w.createCampaign_cases stamp user r with ⟨f, h⟩ | h <;> simp only [obey, h]
  | update user key r =>
    refine .inr ⟨?_, other (by simp)⟩
    rcases w.updateCampaign_cases stamp user key r with ⟨f, h⟩ | ⟨c, -, -, -, h⟩ <;>
      simp only [obey, h]
  | delete user key =>
    refine .inr ⟨?_, other (by simp)⟩
    rcases w.deleteCampaign_cases stamp user key with ⟨f, h⟩ | ⟨c, -, -, h⟩ <;> simp only [obey, h]
  | pause user key =>
    refine .inr ⟨?_, other (by simp)⟩
    rcases w.pauseCampaign_cases stamp user key with ⟨f, h⟩ | ⟨c, -, -, h⟩ <;> simp only [obey, h]
  | start user key =>
    rcases w.startCampaign_cases settings stamp user key with
      ⟨f, h⟩ | ⟨c, run, -, -, -, h⟩
    · refine .inr ⟨by simp only [obey, h], fun id d hd _ ↦ ?_⟩
      simpa only [obey, h] using hd
    · exact .inl ⟨user, key, run, rfl, _, by rw [h], rfl⟩

/-- No timer is lost by a command. -/
theorem mem_pending_obey {t : Timer} (c : Command) (h : t ∈ w.schedule.pending) :
    t ∈ (w.obey settings stamp c).schedule.pending := by
  rcases obey_cases settings w stamp c with ⟨user, id, begun, rfl, starts⟩ | ⟨same, -⟩
  · rw [starts.cases.2.2]
    exact List.mem_append_left _ h
  · rw [same]
    exact h

theorem clock_obey (c : Command) :
    (w.obey settings stamp c).schedule.clock = w.schedule.clock := by
  rcases obey_cases settings w stamp c with ⟨user, id, begun, rfl, starts⟩ | ⟨same, -⟩
  · rw [starts.cases.2.2]
    rfl
  · rw [same]

/-! ## The invariant of sessions -/

/-- Every running campaign has a beginning of its run, and a single timer that carries it; and
timers belong to runs that go on or are over. -/
structure Timed (w : Crm) (future : List Occasion) : Prop where
  /-- The identities that the session is still to give are new. -/
  fresh : Fresh w (commands future)
  unset : ∀ t ∈ w.schedule.pending, t.campaign ∉ made (commands future)
  /-- The run of a timer goes on or is over. -/
  settled : ∀ t ∈ w.schedule.pending,
    GoesOn t.run (w.campaign? t.campaign) ∨ Over t.run (w.campaign? t.campaign)
  single : ∀ id c, w.campaign? id = some c → c.status = .running →
    ∃ begun, c.sentAt = some begun ∧ w.schedule.timersOf id begun = 1

/-- At rest and without timers, nothing is to be kept. -/
theorem Timed.of_idle {future : List Occasion} (idle : w.schedule.pending = [])
    (resting : ∀ id c, w.campaign? id = some c → c.status ≠ .running)
    (fresh : Fresh w (commands future)) : Timed w future where
  fresh := fresh
  unset := by simp [idle]
  settled := by simp [idle]
  single id c hc running := absurd running (resting id c hc)

theorem Timed.timersOf_eq_one {future : List Occasion} (h : Timed w future)
    (goesOn : GoesOn begun (w.campaign? id)) : w.schedule.timersOf id begun = 1 := by
  obtain ⟨c, hc, running, current⟩ := goesOn
  obtain ⟨begun', current', one⟩ := h.single id c hc running
  cases current.symm.trans current'
  exact one

/-- A campaign that is about to be started has no timer yet for the run to come. -/
theorem Timed.timersOf_eq_zero {future : List Occasion} {user : User} (h : Timed w future)
    (starts : Starts settings w stamp user id begun) : w.schedule.timersOf id begun = 0 := by
  obtain ⟨⟨c, hc, resting, earlier⟩, -, -⟩ := starts.cases
  refine Schedule.timersOf_eq_zero ?_
  rintro t ht rfl rfl
  rcases h.settled t ht with ⟨d, hd, running, -⟩ | ended
  · obtain rfl : c = d := Option.some.inj (hc.symm.trans hd)
    exact resting running
  · rcases ended c hc with ⟨current, -⟩ | ⟨later, current, lt⟩
    · exact lt_irrefl _ (earlier _ current)
    · exact lt_asymm lt (earlier _ current)

/-- After a command, the run of a timer that was set before still goes on or is over. -/
theorem Timed.settled_obey {future : List Occasion} {c : Command} {t : Timer}
    (h : Timed w (.command stamp c :: future)) (ht : t ∈ w.schedule.pending) :
    GoesOn t.run ((w.obey settings stamp c).campaign? t.campaign) ∨
      Over t.run ((w.obey settings stamp c).campaign? t.campaign) := by
  have move := move_obey settings w stamp t.campaign c
  have other : madeBy (stamp, .command c) ≠ some t.campaign :=
    madeBy_ne List.mem_cons_self (h.unset t ht)
  rcases h.settled t ht with goesOn | ended
  · exact goesOn.move move other
  · exact .inr (ended.move move other)

/-- After a start, the campaign that was started has a single timer of its new run, and so have the
other running campaigns of theirs. -/
theorem Timed.single_start {future : List Occasion} {user : User} (h : Timed w future)
    (starts : Starts settings w stamp user id begun) {key : Id} {d : Campaign}
    (found : (w.obey settings stamp (.start user id)).campaign? key = some d)
    (running : d.status = .running) :
    ∃ begun', d.sentAt = some begun' ∧
      (w.obey settings stamp (.start user id)).schedule.timersOf key begun' = 1 := by
  obtain ⟨-, ⟨c, hc, -, current⟩, armed⟩ := starts.cases
  rw [armed]
  by_cases here : id = key
  · subst here
    obtain rfl : c = d := Option.some.inj (hc.symm.trans found)
    refine ⟨begun, current, ?_⟩
    rw [Schedule.timersOf_arm, h.timersOf_eq_zero starts, if_pos ⟨rfl, rfl⟩]
  · have move := move_obey settings w stamp key (.start user id)
    rw [found] at move
    have kept : w.campaign? key = some d := by
      apply (move.running running).resolve_right
      rintro ⟨_, ⟨⟩⟩
      exact here rfl
    obtain ⟨begun', current', one⟩ := h.single key d kept running
    refine ⟨begun', current', ?_⟩
    rw [Schedule.timersOf_arm, one, if_neg fun same ↦ here same.1]

/-- Commands keep the invariant. -/
theorem Timed.obey {future : List Occasion} {c : Command}
    (h : Timed w (.command stamp c :: future)) : Timed (w.obey settings stamp c) future := by
  have fresh₀ : Fresh w ((stamp, .command c) :: commands future) := h.fresh
  have fresh : Fresh (w.obey settings stamp c) (commands future) := fresh₀.tail
  have unset : ∀ t ∈ w.schedule.pending, t.campaign ∉ made (commands future) := by
    intro t ht
    exact notMem_made_tail (h.unset t ht)
  rcases obey_cases settings w stamp c with ⟨user, id, begun, rfl, starts⟩ | ⟨same, before⟩
  · obtain ⟨-, begins, armed⟩ := starts.cases
    constructor
    · exact fresh
    · rw [armed]
      simp only [Schedule.arm, List.forall_mem_append, List.forall_mem_singleton]
      exact ⟨unset, begins.notMem_made fresh⟩
    · rw [armed]
      simp only [Schedule.arm, List.forall_mem_append, List.forall_mem_singleton]
      exact ⟨fun t ht ↦ h.settled_obey ht, .inl begins⟩
    · intro key d hd running
      exact h.single_start starts hd running
  · constructor
    · exact fresh
    · rw [same]
      exact unset
    · rw [same]
      intro t ht
      exact h.settled_obey ht
    · rw [same]
      intro id d hd running
      exact h.single id d (before id d hd running) running

/-- A campaign that runs after some timers have gone off ran before, and they have left it as it is.
-/
theorem campaign?_of_run_firings {stamps : Nat → Stamp} {n : Nat} {ts : List Timer} {c : Campaign}
    (h : (w.run settings (firings stamps n ts)).campaign? id = some c)
    (running : c.status = .running) : w.campaign? id = some c := by
  induction ts generalizing n w with
  | nil => exact h
  | cons t ts ih =>
    have move := move_goOff w (stamps n) id t
    have between : (w.goOff (stamps n) t).campaign? id = some c := ih h
    rw [between] at move
    exact (move.running running).resolve_right nofun

theorem campaign?_of_advance {stamps : Nat → Stamp} {ms : Nat} {c : Campaign}
    (h : (w.advance stamps ms).campaign? id = some c) (running : c.status = .running) :
    w.campaign? id = some c := by
  rw [campaign?_advance .usual] at h
  exact campaign?_of_run_firings h running

/-- A stretch of time keeps the invariant. -/
theorem Timed.advance {future : List Occasion} {stamps : Nat → Stamp} {ms : Nat}
    (h : Timed w (.advance stamps ms :: future)) : Timed (w.advance stamps ms) future := by
  constructor
  · refine ⟨h.fresh.nodup, ?_⟩
    intro id hid
    rw [campaign?_advance .usual]
    exact campaign?_run_eq_none (h.fresh.unknown id hid) (by simp)
  · intro t ht
    exact h.unset t (List.mem_of_mem_filter ht)
  · intro t ht
    rw [campaign?_advance .usual]
    rcases h.settled t (List.mem_of_mem_filter ht) with goesOn | ended
    · exact goesOn.run (by simp)
    · exact .inr (ended.run (by simp))
  · intro id c hc running
    have before := campaign?_of_advance hc running
    obtain ⟨begun, current, one⟩ := h.single id c before running
    refine ⟨begun, current, ?_⟩
    rw [← one]
    apply Schedule.timersOf_elapse
    rintro t ht rfl rfl
    -- A timer of this run that falls due would have completed the campaign.
    by_contra due
    have goesOn : GoesOn t.run (w.campaign? t.campaign) := ⟨c, before, running, current⟩
    obtain ⟨done, -⟩ := advance_here stamps ht (Nat.le_of_not_lt due) goesOn
    exact done.not_goesOn ⟨c, hc, running, current⟩

theorem Timed.pass {future : List Occasion} {o : Occasion} (h : Timed w (o :: future)) :
    Timed (w.pass settings o) future :=
  match o with
  | .command _ _ => h.obey
  | .advance _ _ => h.advance

/-- The invariant holds throughout a session. -/
theorem Timed.live {occasions future : List Occasion} (h : Timed w (occasions ++ future)) :
    Timed (w.live settings occasions) future := by
  induction occasions generalizing w with
  | nil => exact h
  | cons o occasions ih => exact ih (Timed.pass h)

/-! ## One run of one campaign -/

/-- After an occasion of a session, a campaign is paused. -/
def PausedIn (settings : Settings.Campaigns) (w : Crm) (id : Id) (occasions : List Occasion) :
    Prop :=
  ∃ part, part <+: occasions ∧
    ((w.live settings part).campaign? id).map (·.status) = some .paused

theorem PausedIn.append {os ps : List Occasion} (h : PausedIn settings w id os) :
    PausedIn settings w id (os ++ ps) := by
  obtain ⟨part, initial, paused⟩ := h
  exact ⟨part, initial.trans (List.prefix_append os ps), paused⟩

/-- After a session, the run of a timer still goes on, and no completion has been logged. -/
structure Awaits (settings : Settings.Campaigns) (w : Crm) (t : Timer) (since : List Occasion) :
    Prop where
  goesOn : GoesOn t.run ((w.live settings since).campaign? t.campaign)
  pending : t ∈ (w.live settings since).schedule.pending
  logs : Logs t.campaign 0 w (w.live settings since)

/-- After a session, the run of a timer has been completed when it was due, which has been logged
once. -/
structure Fulfils (settings : Settings.Campaigns) (w : Crm) (t : Timer) (since : List Occasion) :
    Prop where
  /-- The campaign is completed, or it was until it was deleted. -/
  isCompleted : IsCompleted t.run ((w.live settings since).campaign? t.campaign) ∨
    (w.live settings since).campaign? t.campaign = none ∧
      ∃ part stamp user, part ++ [.command stamp (.delete user t.campaign)] <+: since ∧
        IsCompleted t.run ((w.live settings part).campaign? t.campaign)
  due : t.due ≤ (w.live settings since).schedule.clock
  logs : Logs t.campaign 1 w (w.live settings since)

section Phases

variable {t : Timer} {since future : List Occasion} {o : Occasion}

theorem live_concat (w : Crm) (since : List Occasion) (o : Occasion) :
    w.live settings (since ++ [o]) = (w.live settings since).pass settings o :=
  live_append w since [o]

/-- While the run of a timer goes on, it goes on after a command that does not pause the campaign.
-/
theorem Awaits.command {c : Command} (h : Awaits settings w t since)
    (timed : Timed (w.live settings since) (.command stamp c :: future))
    (unpaused : ¬PausedIn settings w t.campaign (since ++ [.command stamp c])) :
    Awaits settings w t (since ++ [.command stamp c]) := by
  obtain ⟨⟨d, hd, running, current⟩, pending, logs⟩ := h
  have move := move_obey settings (w.live settings since) stamp t.campaign c
  rw [hd] at move
  have lawful := move.lawful (madeBy_ne List.mem_cons_self (timed.fresh.notMem_made hd))
  constructor
  · rw [live_concat]
    rcases lawful.running running with same | ⟨d', hd', ⟨paused, -⟩ | ⟨-, _, fired, -⟩⟩
    · exact ⟨d, same, running, current⟩
    · refine absurd ⟨_, List.prefix_refl _, ?_⟩ unpaused
      rw [live_concat, pass, hd', Option.map_some, paused]
    · cases fired
  · rw [live_concat]
    exact mem_pending_obey c pending
  · rw [live_concat]
    exact logs.trans (logs_obey settings _ stamp t.campaign c)

/-- While the run of a timer goes on, it goes on after a stretch of time if the timer is not due,
and is completed otherwise. -/
theorem Awaits.advance {stamps : Nat → Stamp} {ms : Nat} (h : Awaits settings w t since)
    (timed : Timed (w.live settings since) (.advance stamps ms :: future)) :
    Awaits settings w t (since ++ [.advance stamps ms]) ∨
      Fulfils settings w t (since ++ [.advance stamps ms]) := by
  obtain ⟨goesOn, pending, logs⟩ := h
  by_cases due : t.due ≤ (w.live settings since).schedule.clock + ms
  · right
    obtain ⟨done, logs'⟩ := advance_here stamps pending due goesOn
    constructor
    · rw [live_concat]
      exact .inl done
    · rw [live_concat]
      exact due
    · rw [live_concat]
      exact Nat.zero_add 1 ▸ logs.trans logs'
  · left
    have others : ∀ u ∈ (w.live settings since).schedule.pending,
        u.due ≤ (w.live settings since).schedule.clock + ms → u.campaign = t.campaign →
          ¬GoesOn u.run ((w.live settings since).campaign? t.campaign) := by
      intro u hu due' here goesOn'
      -- The only timer of the run is the one that is not due.
      have one := timed.timersOf_eq_one goesOn
      rw [Schedule.eq_of_timersOf_eq_one one pending hu here (goesOn'.unique goesOn)] at due'
      exact due due'
    obtain ⟨same, logs'⟩ := advance_elsewhere stamps others
    constructor
    · rw [live_concat, pass, same]
      exact goesOn
    · rw [live_concat]
      exact List.mem_filter.mpr ⟨pending, by simpa using due⟩
    · rw [live_concat]
      exact logs.trans logs'

/-- What has been completed stays so after a command, or is deleted by it. -/
theorem Fulfils.command {c : Command} (h : Fulfils settings w t since)
    (other : madeBy (stamp, .command c) ≠ some t.campaign) :
    Fulfils settings w t (since ++ [.command stamp c]) := by
  have move := move_obey settings (w.live settings since) stamp t.campaign c
  constructor
  · rw [live_concat]
    rcases h.isCompleted with ⟨d, hd, status, current⟩ | ⟨absent, part, stamp', user, before, done⟩
    · rw [hd] at move
      rcases (move.lawful other).completed status with same | ⟨gone, user, deletes⟩
      · exact .inl ⟨d, same, status, current⟩
      · cases deletes
        exact .inr ⟨gone, since, stamp, user, List.prefix_refl _, d, hd, status, current⟩
    · rw [absent] at move
      have extended := before.trans (List.prefix_append since [.command stamp c])
      exact .inr ⟨move.eq_none other, part, stamp', user, extended, done⟩
  · rw [live_concat, pass, clock_obey]
    exact h.due
  · rw [live_concat]
    exact h.logs.trans (logs_obey settings _ stamp t.campaign c)

/-- What has been completed stays so in a stretch of time. -/
theorem Fulfils.advance {stamps : Nat → Stamp} {ms : Nat} (h : Fulfils settings w t since) :
    Fulfils settings w t (since ++ [.advance stamps ms]) := by
  have others : ∀ u ∈ (w.live settings since).schedule.pending,
      u.due ≤ (w.live settings since).schedule.clock + ms → u.campaign = t.campaign →
        ¬GoesOn u.run ((w.live settings since).campaign? t.campaign) := by
    intro u _ _ _
    rcases h.isCompleted with done | ⟨absent, -⟩
    · exact done.not_goesOn
    · rw [absent]
      rintro ⟨c, ⟨⟩, -⟩
  obtain ⟨same, logs⟩ := advance_elsewhere stamps others
  constructor
  · rw [live_concat, pass, same]
    apply h.isCompleted.imp_right
    rintro ⟨absent, part, stamp', user, before, done⟩
    exact ⟨absent, part, stamp', user, before.trans (List.prefix_append _ _), done⟩
  · rw [live_concat]
    exact Nat.le_add_right_of_le h.due
  · rw [live_concat]
    exact h.logs.trans logs

theorem Fulfils.pass (h : Fulfils settings w t since) (other : t.campaign ∉ made (commands [o])) :
    Fulfils settings w t (since ++ [o]) :=
  match o, other with
  | .command _ _, other => h.command (madeBy_ne List.mem_cons_self other)
  | .advance _ _, _ => h.advance

/-- In a session in which the campaign is not paused, the run of a timer goes on until it is
completed. -/
theorem awaits_or_fulfils (timed : Timed w (since ++ future))
    (begins : GoesOn t.run (w.campaign? t.campaign)) (pending : t ∈ w.schedule.pending)
    (unpaused : ¬PausedIn settings w t.campaign since) :
    Awaits settings w t since ∨ Fulfils settings w t since := by
  induction since using List.reverseRecOn generalizing future with
  | nil => exact .inl ⟨begins, pending, .refl _ w⟩
  | append_singleton since o ih =>
    rw [List.append_assoc, List.singleton_append] at timed
    have before := ih timed fun paused ↦ unpaused paused.append
    have now : Timed (w.live settings since) (o :: future) := timed.live
    rcases before with awaits | fulfils
    · cases o with
      | command stamp c => exact .inl (awaits.command now unpaused)
      | advance stamps ms => exact awaits.advance now
    · right
      have other := begins.notMem_made timed.fresh
      rw [← List.singleton_append, commands_append, commands_append] at other
      exact fulfils.pass (notMem_made_left (notMem_made_right other))

theorem Fulfils.live {rest : List Occasion} (h : Fulfils settings w t since)
    (other : t.campaign ∉ made (commands rest)) : Fulfils settings w t (since ++ rest) := by
  induction rest generalizing since with
  | nil => simpa using h
  | cons o rest ih =>
    rw [← List.singleton_append] at other ⊢
    rw [commands_append] at other
    rw [← List.append_assoc]
    exact ih (h.pass (notMem_made_left other)) (notMem_made_right other)

end Phases

/-! ## All sessions -/

/-- In every session that begins at rest, with any delay, every running campaign has exactly one
timer that carries the beginning of its run. And a run that is not paused goes on, without its
completion being logged, after every occasion that ends before it is due; and from every stretch of
time on that ends when it is due or later, it has been completed, which has been logged exactly
once. -/
theorem runs_end_punctually (settings : Settings.Campaigns) (w₀ : Crm) (occasions : List Occasion)
    (idle : w₀.schedule.pending = [])
    (resting : ∀ id c, w₀.campaign? id = some c → c.status ≠ .running)
    (fresh : Fresh w₀ (commands occasions)) :
    (∀ id c, (w₀.live settings occasions).campaign? id = some c → c.status = .running →
      ∃ begun, c.sentAt = some begun ∧
        (w₀.live settings occasions).schedule.timersOf id begun = 1) ∧
    ∀ past stamp user id begun since,
      occasions = past ++ .command stamp (.start user id) :: since →
      Starts settings (w₀.live settings past) stamp user id begun →
      let before := w₀.live settings past
      let w := before.obey settings stamp (.start user id)
      let t : Timer := ⟨id, begun, before.schedule.clock + settings.completionDelay.toNat⟩
      ¬PausedIn settings w id since →
      ((w.live settings since).schedule.clock < t.due → Awaits settings w t since) ∧
      ∀ part stamps ms rest, since = part ++ .advance stamps ms :: rest →
        t.due ≤ (w.live settings (part ++ [.advance stamps ms])).schedule.clock →
        Fulfils settings w t since := by
  have timed₀ : Timed w₀ occasions := .of_idle idle resting fresh
  constructor
  · have timed : Timed w₀ (occasions ++ []) := by simpa using timed₀
    have timed' : Timed (w₀.live settings occasions) [] := timed.live
    exact timed'.single
  rintro past stamp user id begun since rfl starts before w t unpaused
  obtain ⟨-, begins, armed⟩ := starts.cases
  have timed' : Timed before (.command stamp (.start user id) :: since) := timed₀.live
  have timed : Timed w since := timed'.obey
  have pending : t ∈ w.schedule.pending := by
    rw [armed]
    exact List.mem_append_right _ (List.mem_singleton_self t)
  constructor
  · intro early
    have timed' : Timed w (since ++ []) := by simpa using timed
    apply (awaits_or_fulfils timed' begins pending unpaused).resolve_right
    intro fulfils
    exact absurd fulfils.due (Nat.not_le_of_lt early)
  · rintro part stamps ms rest rfl due
    rw [← List.singleton_append, ← List.append_assoc] at timed unpaused ⊢
    apply Fulfils.live
    · have unpaused' := fun paused ↦ unpaused (PausedIn.append paused)
      apply (awaits_or_fulfils timed begins pending unpaused').resolve_left
      intro awaits
      -- After a stretch of time, the timers that are left are not due.
      have left := awaits.pending
      rw [live_concat] at left due
      have : (w.live settings part).schedule.clock + ms < t.due := by
        simpa using (List.mem_filter.mp left).2
      exact absurd due (Nat.not_le_of_lt this)
    · have other := begins.notMem_made timed.fresh
      rw [commands_append] at other
      exact notMem_made_right other

/-- A campaign is paused when three seconds of its run have passed, and started again. The timer of
its first run then falls due two seconds later, and the one of its second run three seconds after
that. -/
def restarted : List Occasion :=
  [.command (tick 1) (.create someone offer), .command (tick 2) (.start someone ⟨1⟩),
    .advance (fun n ↦ tick (3 + n)) 3000, .command (tick 4) (.pause someone ⟨1⟩),
    .command (tick 5) (.update someone ⟨1⟩ (give .scheduled)),
    .command (tick 6) (.start someone ⟨1⟩), .advance (fun n ↦ tick (7 + n)) 2000,
    .advance (fun n ↦ tick (8 + n)) 2999, .advance (fun n ↦ tick (9 + n)) 1]

/-- The second run of the campaign goes on for five seconds, and not a millisecond longer. -/
theorem runs_end_punctually_restarted :
    Fresh .empty (commands restarted) ∧
      Starts .usual (Crm.empty.live .usual (restarted.take 5)) (tick 6) someone ⟨1⟩ (tick 6).now ∧
      Awaits .usual (Crm.empty.live .usual (restarted.take 6)) ⟨⟨1⟩, (tick 6).now, 8000⟩
        ((restarted.drop 6).take 2) ∧
      Fulfils .usual (Crm.empty.live .usual (restarted.take 6)) ⟨⟨1⟩, (tick 6).now, 8000⟩
        (restarted.drop 6) := by
  have fresh : Fresh .empty (commands restarted) := ⟨by decide, fun _ _ ↦ rfl⟩
  have fresh' : Fresh .empty (commands (restarted.take 8)) := ⟨by decide, fun _ _ ↦ rfl⟩
  have resting (id : Id) (c : Campaign) (h : Crm.empty.campaign? id = some c) :
      c.status ≠ .running := by
    cases h
  have starts : Starts .usual (Crm.empty.live .usual (restarted.take 5)) (tick 6) someone ⟨1⟩
      (tick 6).now := by decide +kernel
  have unpaused : ¬PausedIn .usual (Crm.empty.live .usual (restarted.take 6)) ⟨1⟩ (restarted.drop 6) := by
    have : ∀ part ∈ (restarted.drop 6).inits,
        (((Crm.empty.live .usual (restarted.take 6)).live .usual part).campaign? ⟨1⟩).map (·.status) ≠
          some .paused := by decide +kernel
    rintro ⟨part, initial, paused⟩
    exact this part ((List.mem_inits part _).mpr initial) paused
  have unpaused' : ¬PausedIn .usual (Crm.empty.live .usual (restarted.take 6)) ⟨1⟩
      ((restarted.drop 6).take 2) := fun ⟨part, initial, paused⟩ ↦
    unpaused ⟨part, initial.trans (List.take_prefix _ _), paused⟩
  have due : (Crm.empty.live .usual (restarted.take 5)).schedule.clock +
      (.usual : Settings.Campaigns).completionDelay.toNat = 8000 := by decide +kernel
  obtain ⟨-, early⟩ := runs_end_punctually .usual .empty (restarted.take 8) rfl resting fresh'
  obtain ⟨-, late⟩ := runs_end_punctually .usual .empty restarted rfl resting fresh
  refine ⟨fresh, starts, ?_, ?_⟩ <;> rw [← due]
  · exact (early (restarted.take 5) (tick 6) someone ⟨1⟩ _ _ rfl starts unpaused').1
      (by decide +kernel)
  · exact (late (restarted.take 5) (tick 6) someone ⟨1⟩ _ _ rfl starts unpaused).2
      ((restarted.drop 6).take 2) _ 1 [] rfl (by decide +kernel)

end Crm

end Outreach
