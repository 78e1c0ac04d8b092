import Outreach.Proofs.Crm.Run

/-!
# Timers and the runs they were set for

A run of a campaign is known by the instant at which it began, and the timer that is set at its
start keeps that instant. Whatever the clock shows, later runs of the campaign have later
beginnings. So a timer completes the run that it was set for if that run has gone on ever since, and
otherwise it changes nothing: neither a later run, nor a paused campaign, nor anything after a
deletion.

The argument is about the place where one campaign is kept. The run that began at an instant either
goes on there (`GoesOn`), or is over (`Over`); what is over stays over, because every beginning to
come is later.
-/

namespace Outreach.Crm

open Calendar
open Campaign (Timer)

variable {settings : Settings.Campaigns} {w : Crm} {stamp : Stamp} {id : Id} {begun : Instant}

/-! ## One run of one campaign -/

/-- The campaign is in the run that began at an instant. -/
def GoesOn (begun : Instant) (x : Option Campaign) : Prop :=
  ∃ c, x = some c ∧ c.status = .running ∧ c.sentAt = some begun

/-- The campaign is gone, or it no longer runs since the run that began at an instant, or a later
run of it has begun. -/
def Over (begun : Instant) (x : Option Campaign) : Prop :=
  ∀ c, x = some c →
    c.sentAt = some begun ∧ c.status ≠ .running ∨ ∃ later, c.sentAt = some later ∧ begun < later

theorem Over.not_goesOn {x : Option Campaign} (h : Over begun x) : ¬GoesOn begun x := by
  rintro ⟨c, hc, running, current⟩
  rcases h c hc with ⟨-, resting⟩ | ⟨later, hlater, lt⟩
  · exact resting running
  · rw [current] at hlater
    cases hlater
    exact lt_irrefl _ lt

/-- A campaign is in one run at a time. -/
theorem GoesOn.unique {other : Instant} {x : Option Campaign} (h : GoesOn begun x)
    (h' : GoesOn other x) : begun = other := by
  obtain ⟨c, rfl, -, current⟩ := h
  obtain ⟨d, ⟨⟩, -, current'⟩ := h'
  exact Option.some.inj (current.symm.trans current')

/-- A campaign in a run is there, so it is not made again. -/
theorem GoesOn.notMem_made {events : List (Stamp × Event)} (h : GoesOn begun (w.campaign? id))
    (fresh : Fresh w events) : id ∉ made events := by
  obtain ⟨c, found, -⟩ := h
  exact fresh.notMem_made found

/-- A campaign that keeps the beginning of its latest run, and does not run unless it did before, is
still over with a run. -/
theorem Over.of_sentAt_eq {c c' : Campaign} (h : Over begun (some c)) (same : c'.sentAt = c.sentAt)
    (status : c'.status = .running → c.status = .running) : Over begun (some c') := by
  rintro _ ⟨⟩
  rw [same]
  exact (h c rfl).imp_left fun resting ↦ ⟨resting.1, fun running ↦ resting.2 (status running)⟩

/-- A run that is over stays over, unless a campaign is made in its place. -/
theorem Over.move {e : Event} {x y : Option Campaign} (h : Over begun x)
    (move : Move id stamp e x y) (other : madeBy (stamp, e) ≠ some id) : Over begun y := by
  cases move with
  | stay => exact h
  | create user r size _ here => exact absurd (congrArg some here) other
  | update user r size editable assignable =>
    exact h.of_sentAt_eq rfl fun running ↦ status_of_edited assignable running rfl
  | delete =>
    intro c h
    cases h
  | @start user size rates c run startable begins =>
    rintro _ ⟨⟩
    refine .inr ⟨run, rfl, ?_⟩
    rcases h c rfl with ⟨current, -⟩ | ⟨later, current, lt⟩
    · exact lt_of_runStart? begins _ current
    · exact lt_trans lt (lt_of_runStart? begins _ current)
  | pause user running => exact h.of_sentAt_eq rfl nofun
  | complete t here current running => exact h.of_sentAt_eq rfl nofun

/-- A run goes on until it is over. -/
theorem GoesOn.move {e : Event} {x y : Option Campaign} (h : GoesOn begun x)
    (move : Move id stamp e x y) (other : madeBy (stamp, e) ≠ some id) :
    GoesOn begun y ∨ Over begun y := by
  obtain ⟨c, rfl, running, current⟩ := h
  cases move with
  | stay => exact .inl ⟨c, rfl, running, current⟩
  | create user r size _ here => exact absurd (congrArg some here) other
  | update user r size editable assignable => exact absurd running editable.1
  | delete user deletable => exact absurd running deletable
  | start user size rates startable begins => simp [running] at startable
  | pause user _ =>
    right
    rintro _ ⟨⟩
    exact .inl ⟨current, nofun⟩
  | complete t here _ _ =>
    right
    rintro _ ⟨⟩
    exact .inl ⟨current, nofun⟩

theorem madeBy_ne {e : Event} {events : List (Stamp × Event)} (he : (stamp, e) ∈ events)
    (other : id ∉ made events) : madeBy (stamp, e) ≠ some id :=
  fun same ↦ other (List.mem_filterMap.mpr ⟨_, he, same⟩)

/-- What is over with a run stays so. -/
theorem Over.run {events : List (Stamp × Event)} (h : Over begun (w.campaign? id))
    (other : id ∉ made events) : Over begun ((w.run settings events).campaign? id) :=
  run_induction (P := Over begun)
    (fun _ _ _ _ he move ended ↦ ended.move move (madeBy_ne he other)) w h

/-- Some time after its beginning, a run goes on or is over. -/
theorem GoesOn.run {events : List (Stamp × Event)} (h : GoesOn begun (w.campaign? id))
    (other : id ∉ made events) :
    GoesOn begun ((w.run settings events).campaign? id) ∨
      Over begun ((w.run settings events).campaign? id) := by
  refine run_induction (P := fun x ↦ GoesOn begun x ∨ Over begun x) ?_ w (.inl h)
  rintro stamp e x y he move (goesOn | ended)
  · exact goesOn.move move (madeBy_ne he other)
  · exact .inr (ended.move move (madeBy_ne he other))

/-! ## Timers that go off -/

/-- The timer of a run that goes on completes it. -/
theorem goOff_of_goesOn (stamp : Stamp) {t : Timer} (h : GoesOn t.run (w.campaign? t.campaign)) :
    ∃ c, (w.goOff stamp t).campaign? t.campaign = some c ∧ c.status = .completed ∧
      c.sentAt = some t.run := by
  obtain ⟨c, found, running, current⟩ := h
  rcases completeRun_cases stamp t.campaign w.store t.run with
    ⟨-, idle⟩ | ⟨c', found', current', -, h⟩
  · exact absurd running (idle c found current)
  · have same : (completed c' stamp.now).id = t.campaign := Table.key_of_find? (a := c') found'
    refine ⟨completed c' stamp.now, ?_, rfl, current'⟩
    simp only [goOff, h, campaign?, Store.campaigns_filed]
    rw [find?_put_eq same, if_pos rfl]

/-- A timer whose run does not go on changes nothing in the store. -/
theorem goOff_of_not_goesOn (stamp : Stamp) {t : Timer}
    (h : ¬GoesOn t.run (w.campaign? t.campaign)) :
    (w.goOff stamp t).store = w.store := by
  rcases completeRun_cases stamp t.campaign w.store t.run with
    ⟨idle, -⟩ | ⟨c, found, current, running, -⟩
  · simp only [goOff, idle]
  · exact absurd ⟨c, found, running, current⟩ h

/-! ## Starts -/

/-- A start of a campaign is accepted and gives its run a beginning. -/
def Starts (settings : Settings.Campaigns) (w : Crm) (stamp : Stamp) (user : User) (id : Id)
    (begun : Instant) : Prop :=
  ∃ c, (w.startCampaign settings stamp user id).1 = .ok c ∧ c.sentAt = some begun

theorem starts_iff {user : User} : Starts settings w stamp user id begun ↔
    (w.startCampaign settings stamp user id).1.toOption.bind (·.sentAt) = some begun := by
  rw [Starts, Option.bind_eq_some_iff]
  cases (w.startCampaign settings stamp user id).1 <;> simp [Except.toOption]

instance {user : User} : Decidable (Starts settings w stamp user id begun) :=
  decidable_of_iff _ starts_iff.symm

/-- What an accepted start finds and what it leaves. -/
theorem Starts.cases {user : User} (h : Starts settings w stamp user id begun) :
    (∃ c, w.campaign? id = some c ∧ c.status ≠ .running ∧ ∀ t, c.sentAt = some t → t < begun) ∧
      GoesOn begun ((w.obey settings stamp (.start user id)).campaign? id) ∧
      (w.obey settings stamp (.start user id)).schedule =
        w.schedule.arm id begun settings.completionDelay := by
  obtain ⟨c', accepted, current⟩ := h
  rcases w.startCampaign_cases settings stamp user id with
    ⟨f, h⟩ | ⟨c, run, found, startable, begins, h⟩
  · rw [h] at accepted
    cases accepted
  · rw [h] at accepted
    cases accepted
    obtain rfl : run = begun := Option.some.inj current
    have same := id_of_campaign? found
    let c' := started c .running (audienceSize w.store c.audienceRules) settings.rates run stamp.now
    refine ⟨⟨c, found, ?_, lt_of_runStart? begins⟩, ⟨c', ?_, rfl, rfl⟩, ?_⟩
    · rintro running
      simp [running] at startable
    · simp only [obey, h, campaign?, Store.campaigns_filed]
      rw [find?_put_eq (c := c') same, if_pos rfl]
    · simp only [obey, h]

/-! ## Completions of one run -/

/-- An event is a timer that completes the run of a campaign that began at an instant. -/
def completes (w : Crm) (stamp : Stamp) (id : Id) (begun : Instant) : Event → Bool
  | .command _ => false
  | .timer t =>
    decide (t.campaign = id ∧ t.run = begun) && (completeRun w.store stamp t.campaign t.run).1

/-- How often a run completes the run of a campaign that began at an instant. -/
def completions (settings : Settings.Campaigns) (id : Id) (begun : Instant) :
    Crm → List (Stamp × Event) → Nat
  | _, [] => 0
  | w, (stamp, e) :: events =>
    (if w.completes stamp id begun e then 1 else 0) +
      completions settings id begun (w.after settings stamp e) events

/-- Only a run that goes on is completed, and then it is over. -/
theorem completes_cases (settings : Settings.Campaigns) {e : Event}
    (h : w.completes stamp id begun e = true) :
    GoesOn begun (w.campaign? id) ∧ Over begun ((w.after settings stamp e).campaign? id) := by
  cases e with
  | command c => cases h
  | timer t =>
    simp only [completes, Bool.and_eq_true, decide_eq_true_eq] at h
    obtain ⟨⟨rfl, rfl⟩, done⟩ := h
    rcases completeRun_cases stamp t.campaign w.store t.run with
      ⟨idle, -⟩ | ⟨c, found, current, running, -⟩
    · rw [idle] at done
      cases done
    · have goesOn : GoesOn t.run (w.campaign? t.campaign) := ⟨c, found, running, current⟩
      obtain ⟨c', found', status, current'⟩ := goOff_of_goesOn stamp goesOn
      refine ⟨goesOn, fun d hd ↦ .inl ?_⟩
      obtain rfl : c' = d := Option.some.inj (found'.symm.trans hd)
      exact ⟨current', by simp [status]⟩

/-- A run that is over is not completed any more. -/
theorem completions_eq_zero {events : List (Stamp × Event)} (ended : Over begun (w.campaign? id))
    (other : id ∉ made events) : completions settings id begun w events = 0 := by
  induction events generalizing w with
  | nil => rfl
  | cons e events ih =>
    obtain ⟨stamp, e⟩ := e
    have idle : ¬w.completes stamp id begun e = true := fun h ↦
      ended.not_goesOn (completes_cases settings h).1
    have ended' : Over begun ((w.after settings stamp e).campaign? id) :=
      ended.move (move_after settings w stamp id e) (madeBy_ne List.mem_cons_self other)
    simp only [completions, if_neg idle, ih ended' (notMem_made_tail other)]

/-- A run is completed at most once. -/
theorem completions_le_one {events : List (Stamp × Event)} (fresh : Fresh w events) :
    completions settings id begun w events ≤ 1 := by
  induction events generalizing w with
  | nil => exact Nat.zero_le 1
  | cons e events ih =>
    obtain ⟨stamp, e⟩ := e
    have fresh' : Fresh (w.after settings stamp e) events := fresh.tail
    unfold completions
    split
    · next h =>
      obtain ⟨goesOn, ended⟩ := completes_cases settings h
      have other : id ∉ made events := notMem_made_tail (goesOn.notMem_made fresh)
      exact Nat.le_of_eq (congrArg (1 + ·) (completions_eq_zero ended other))
    · rw [Nat.zero_add]
      exact ih fresh'

/-! ## All runs -/

/-- Since the beginning of the run that a timer was set for, that run has gone on in every state. -/
def Unbroken (settings : Settings.Campaigns) (w : Crm) (t : Timer)
    (since : List (Stamp × Event)) : Prop :=
  ∀ part, part <+: since → GoesOn t.run ((w.run settings part).campaign? t.campaign)

/-- A run that was broken once is over. -/
theorem over_of_not_unbroken {t : Timer} {since : List (Stamp × Event)}
    (begins : GoesOn t.run (w.campaign? t.campaign)) (other : t.campaign ∉ made since)
    (broken : ¬Unbroken settings w t since) :
    Over t.run ((w.run settings since).campaign? t.campaign) := by
  simp only [Unbroken, not_forall] at broken
  obtain ⟨part, ⟨rest, rfl⟩, stopped⟩ := broken
  rw [run_append]
  exact ((begins.run (notMem_made_left other)).resolve_left stopped).run (notMem_made_right other)

/-- In every run, whatever the clock shows: the timer that a start sets completes the campaign if
the run that began then has gone on in every state since, and otherwise, that is after a pause,
another start or a deletion, it leaves the store exactly as it is; every later start of the campaign
has a later beginning; and no run of a campaign is completed twice. -/
theorem timer_completes_its_run_only (settings : Settings.Campaigns) (w₀ : Crm)
    (events : List (Stamp × Event)) (fresh : Fresh w₀ events) :
    (∀ past stamp user id begun since future,
      events = past ++ (stamp, .command (.start user id)) :: (since ++ future) →
      Starts settings (w₀.run settings past) stamp user id begun →
      let before := w₀.run settings past
      let w := before.obey settings stamp (.start user id)
      let w' := w.run settings since
      let t : Timer := ⟨id, begun, before.schedule.clock + settings.completionDelay.toNat⟩
      w.schedule.pending = before.schedule.pending ++ [t] ∧
      (Unbroken settings w t since → ∀ stamp', ∃ c,
        (w'.goOff stamp' t).campaign? id = some c ∧ c.status = .completed) ∧
      (¬Unbroken settings w t since → ∀ stamp', (w'.goOff stamp' t).store = w'.store) ∧
      ∀ stamp' user' begun', Starts settings w' stamp' user' id begun' → begun < begun') ∧
    ∀ id begun, completions settings id begun w₀ events ≤ 1 := by
  refine ⟨?_, fun _ _ ↦ completions_le_one fresh⟩
  rintro past stamp user id begun since future rfl starts before w w' t
  obtain ⟨-, begins, schedule⟩ := starts.cases
  have fresh₀ : Fresh before ((stamp, .command (.start user id)) :: (since ++ future)) :=
    fresh.right
  have fresh' : Fresh w (since ++ future) := fresh₀.tail
  have other : id ∉ made since := begins.notMem_made fresh'.left
  refine ⟨?_, fun unbroken stamp' ↦ ?_, fun broken stamp' ↦ ?_, fun stamp' user' begun' again ↦ ?_⟩
  · show w.schedule.pending = _
    rw [schedule]
    rfl
  · obtain ⟨c, found, status, -⟩ :=
      goOff_of_goesOn stamp' (unbroken since (List.prefix_refl since))
    exact ⟨c, found, status⟩
  · exact goOff_of_not_goesOn stamp' (over_of_not_unbroken begins other broken).not_goesOn
  · obtain ⟨⟨c, found, resting, later⟩, -, -⟩ := again.cases
    -- A start finds the campaign at rest, so the earlier run is over by then.
    have since_begun : GoesOn begun (w'.campaign? id) ∨ Over begun (w'.campaign? id) :=
      begins.run other
    rcases since_begun with ⟨d, hd, running, -⟩ | ended
    · obtain rfl : c = d := Option.some.inj (found.symm.trans hd)
      exact absurd running resting
    · rcases ended c found with ⟨current, -⟩ | ⟨between, current, lt⟩
      · exact later _ current
      · exact lt_trans lt (later _ current)

/-- The timer of the run that was broken off leaves the second run alone. -/
theorem timer_completes_its_run_only_twoRuns :
    Fresh .empty twoRuns ∧
      Starts .usual (Crm.empty.run .usual (twoRuns.take 1)) (tick 2) someone ⟨1⟩ (tick 2).now ∧
      ((Crm.empty.run .usual (twoRuns.take 5)).goOff (tick 6) ⟨⟨1⟩, (tick 2).now, 5000⟩).store =
        (Crm.empty.run .usual (twoRuns.take 5)).store ∧
      completions .usual ⟨1⟩ (tick 5).now .empty twoRuns ≤ 1 := by
  have starts :
      Starts .usual (Crm.empty.run .usual (twoRuns.take 1)) (tick 2) someone ⟨1⟩ (tick 2).now := by decide
  obtain ⟨timers, once⟩ := timer_completes_its_run_only .usual .empty twoRuns fresh_twoRuns
  obtain ⟨-, -, stale, -⟩ :=
    timers (twoRuns.take 1) (tick 2) someone ⟨1⟩ _ ((twoRuns.drop 2).take 3) (twoRuns.drop 5) rfl
      starts
  refine ⟨fresh_twoRuns, starts, stale (fun unbroken ↦ ?_) (tick 6), once ⟨1⟩ (tick 5).now⟩
  obtain ⟨c, found, running, -⟩ := unbroken ((twoRuns.drop 2).take 1) ⟨_, rfl⟩
  have paused : ((Crm.empty.run .usual (twoRuns.take 3)).campaign? ⟨1⟩).map (·.status) =
      some .paused := by decide
  rw [show (Crm.empty.run .usual (twoRuns.take 3)).campaign? ⟨1⟩ = some c from found] at paused
  simp [running] at paused

end Outreach.Crm
