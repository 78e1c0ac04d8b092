import Outreach.Proofs.Crm.Refusals

/-!
# What is carried out

A command that is carried out has one thing to say to the audit log, and so has a timer that
completes a run; whatever else happens has nothing to say. What is said is kept behind what was said
before (`keeps_after`). Seen from a single campaign, either nothing is said about it, and then
nothing changes, or it takes one of six turns (`turn_after`). Unlike the moves of a campaign, the
turns tell what was said and among whom the audience was counted.
-/

namespace Outreach

open Campaign (Timer)

/-- What the audit log is told about a campaign. -/
structure Audit.Note where
  action : Audit.Action
  campaign : Id
  user : String
deriving DecidableEq

/-- The entry by which a note is kept. -/
def Audit.Note.entry (n : Audit.Note) (stamp : Stamp) (details : Json) : Audit.Entry :=
  ⟨stamp.entryId, n.user, n.action, "campaign", n.campaign.text, details, stamp.now⟩

/-- From one store to the next, a note is kept behind everything that was kept before, and if there
is no note the log stays as it is. -/
def Store.Keeps (s s' : Store) (stamp : Stamp) : Option Audit.Note → Prop
  | none => s'.audit = s.audit
  | some n => ∃ details, s'.audit = s.audit ++ [n.entry stamp details]

/-- Of what is filed with the campaigns, the note is kept. -/
theorem Store.Keeps.filed (s : Store) (stamp : Stamp) (n : Audit.Note)
    (details : List (String × Json)) (campaigns : Table Campaign.id) :
    s.Keeps (s.filed stamp n.user n.action n.campaign details campaigns) stamp (some n) :=
  ⟨.object details, rfl⟩

namespace Crm

/-- What a command has to say to the audit log if it is carried out. -/
def Command.note? (stamp : Stamp) : Command → Option Audit.Note
  | .records _ => none
  | .create user _ => some ⟨.create, stamp.id, user.email⟩
  | .update user id _ => some ⟨.update, id, user.email⟩
  | .delete user id => some ⟨.delete, id, user.email⟩
  | .start user id => some ⟨.start, id, user.email⟩
  | .pause user id => some ⟨.pause, id, user.email⟩

section Notes

variable (settings : Settings.Campaigns) (w : Crm) (stamp : Stamp)

def Accepts (c : Command) : Prop := (w.perform settings stamp c).1 = .ok ()

instance (c : Command) : Decidable (w.Accepts settings stamp c) :=
  inferInstanceAs (Decidable (_ = _))

/-- What an event has to say to the audit log: commands that are carried out, and timers that
complete a run, which count as done by the system. -/
def note? : Event → Option Audit.Note
  | .command c => if w.Accepts settings stamp c then c.note? stamp else none
  | .timer t =>
    if (completeRun w.store stamp t.campaign t.run).1 then some ⟨.complete, t.campaign, "system"⟩
    else none

/-- What an event says was done to a campaign. -/
def told (id : Id) (e : Event) : Option Audit.Action :=
  match w.note? settings stamp e with
  | none => none
  | some n => if n.campaign = id then some n.action else none

end Notes

variable {settings : Settings.Campaigns} {w : Crm} {stamp : Stamp} {id : Id}

/-! ## Accepted and refused -/

theorem accepts_or_refused (c : Command) :
    w.Accepts settings stamp c ∨ ∃ f, (w.perform settings stamp c).1 = .error f := by
  unfold Accepts
  cases (w.perform settings stamp c).1 with
  | error f => exact .inr ⟨f, rfl⟩
  | ok _ => exact .inl rfl

theorem Accepts.ne_error {c : Command} (h : w.Accepts settings stamp c) (f : Fault) :
    (w.perform settings stamp c).1 ≠ .error f := by
  intro refused
  rw [Accepts, refused] at h
  cases h

/-- What is not carried out changes nothing. -/
theorem obey_of_not_accepts {c : Command} (h : ¬w.Accepts settings stamp c) :
    w.obey settings stamp c = w := by
  obtain ⟨f, refused⟩ := (accepts_or_refused c).resolve_left h
  rw [← perform_snd]
  exact w.perform_harmless settings stamp c f refused

theorem told_of_not_accepts {c : Command} (h : ¬w.Accepts settings stamp c) :
    w.told settings stamp id (.command c) = none := by
  simp only [told, note?, if_neg h]

theorem told_of_accepts {c : Command} {n : Audit.Note} (h : w.Accepts settings stamp c)
    (noted : c.note? stamp = some n) :
    w.told settings stamp id (.command c) = if n.campaign = id then some n.action else none := by
  simp only [told, note?, if_pos h, noted]

theorem told_of_accepts_here {c : Command} {n : Audit.Note} (h : w.Accepts settings stamp c)
    (noted : c.note? stamp = some n) (here : n.campaign = id) :
    w.told settings stamp id (.command c) = some n.action := by
  rw [told_of_accepts h noted, if_pos here]

/-! ## What is kept -/

variable (settings w stamp) in
theorem keeps_obey (c : Command) :
    w.store.Keeps (w.obey settings stamp c).store stamp (w.note? settings stamp (.command c)) := by
  by_cases accepted : w.Accepts settings stamp c
  swap
  · rw [note?, if_neg accepted, obey_of_not_accepts accepted]
    rfl
  rw [note?, if_pos accepted]
  cases c with
  | records c => exact (w.store.obey_frame stamp c).2
  | create user r =>
    rcases w.createCampaign_cases stamp user r with ⟨f, h⟩ | h
    · exact absurd (congrArg (·.verdict.1) h) (accepted.ne_error f)
    · rw [obey, h]
      exact .filed w.store stamp ⟨.create, stamp.id, user.email⟩ _ _
  | update user id r =>
    rcases w.updateCampaign_cases stamp user id r with ⟨f, h⟩ | ⟨c, -, -, -, h⟩
    · exact absurd (congrArg (·.verdict.1) h) (accepted.ne_error f)
    · rw [obey, h]
      exact .filed w.store stamp ⟨.update, id, user.email⟩ _ _
  | delete user id =>
    rcases w.deleteCampaign_cases stamp user id with ⟨f, h⟩ | ⟨c, -, -, h⟩
    · exact absurd (congrArg (·.verdict.1) h) (accepted.ne_error f)
    · rw [obey, h]
      exact .filed w.store stamp ⟨.delete, id, user.email⟩ _ _
  | start user id =>
    rcases w.startCampaign_cases settings stamp user id with ⟨f, h⟩ | ⟨c, run, -, -, -, h⟩
    · exact absurd (congrArg (·.verdict.1) h) (accepted.ne_error f)
    · rw [obey, h]
      exact .filed w.store stamp ⟨.start, id, user.email⟩ _ _
  | pause user id =>
    rcases w.pauseCampaign_cases stamp user id with ⟨f, h⟩ | ⟨c, -, -, h⟩
    · exact absurd (congrArg (·.verdict.1) h) (accepted.ne_error f)
    · rw [obey, h]
      exact .filed w.store stamp ⟨.pause, id, user.email⟩ _ _

variable (w stamp) in
/-- A timer has something to say exactly if it changes the store. -/
theorem note?_timer_eq_none_iff (t : Timer) :
    w.note? settings stamp (.timer t) = none ↔ (w.goOff stamp t).store = w.store := by
  rw [note?, goOff]
  rcases completeRun_cases stamp t.campaign w.store t.run with ⟨h, -⟩ | ⟨c, -, -, -, h⟩
  · simp [h]
  · rw [h]
    refine iff_of_false (Option.some_ne_none _) fun same ↦ ?_
    have longer := congrArg (·.audit.length) same
    simp at longer

variable (settings w stamp) in
theorem keeps_after (e : Event) :
    w.store.Keeps (w.after settings stamp e).store stamp (w.note? settings stamp e) := by
  cases e with
  | command c => exact keeps_obey settings w stamp c
  | timer t =>
    rw [after, note?, goOff]
    rcases completeRun_cases stamp t.campaign w.store t.run with ⟨h, -⟩ | ⟨c, -, -, -, h⟩
    · rw [h]
      rfl
    · rw [h]
      exact .filed w.store stamp ⟨.complete, t.campaign, "system"⟩ _ _

/-! ## Turns -/

section Turns

variable (settings w stamp id)

/-- What an event is to the campaign with an identity: what is said to have been done to it, and the
campaign or its absence before and after. -/
inductive Turn : Event → Option Audit.Action → Option Campaign → Option Campaign → Prop where
  | pass (e : Event) (x : Option Campaign) : Turn e none x x
  | create (user : User) (r : Campaign.New) (x : Option Campaign) (here : stamp.id = id) :
      Turn (.command (.create user r)) (some .create) x
        (some (newCampaign r (audienceSize w.store r.audienceRules) user stamp))
  | update (user : User) (r : Campaign.Edit) {c : Campaign}
      (editable : c.status ≠ .running ∧ c.status ≠ .completed)
      (assignable : ∀ s, r.status = some s → s.isAssignable = true) :
      Turn (.command (.update user id r)) (some .update) (some c)
        (some (edited r (audienceSize w.store) c stamp.now))
  | delete (user : User) {c : Campaign} (deletable : c.status ≠ .running) :
      Turn (.command (.delete user id)) (some .delete) (some c) none
  | start (user : User) {c : Campaign} (run : Calendar.Instant)
      (startable : c.status = .draft ∨ c.status = .scheduled) :
      Turn (.command (.start user id)) (some .start) (some c)
        (some (started c .running (audienceSize w.store c.audienceRules) settings.rates run
          stamp.now))
  | pause (user : User) {c : Campaign} (running : c.status = .running) :
      Turn (.command (.pause user id)) (some .pause) (some c)
        (some { c with status := .paused, updatedAt := stamp.now })
  | complete (t : Timer) {c : Campaign} (running : c.status = .running) :
      Turn (.timer t) (some .complete) (some c) (some (completed c stamp.now))

end Turns

/-- A record that replaces the one with its identity is a turn where it stands, and elsewhere
nothing is said and nothing changes. -/
theorem Turn.of_put {e : Event} {a : Audit.Action} {c c' : Campaign} {key : Id}
    (found : w.campaign? key = some c) (same : c'.id = c.id)
    (here : key = id → Turn settings w stamp id e (some a) (some c) (some c')) :
    Turn settings w stamp id e (if key = id then some a else none) (w.campaign? id)
      ((w.store.campaigns.put c').find? id) := by
  rw [find?_put_eq (same.trans (id_of_campaign? found))]
  by_cases h : key = id
  · rw [if_pos h, if_pos h, ← h, found]
    exact h ▸ here h
  · rw [if_neg h, if_neg h]
    exact .pass e _

variable (settings w stamp id)

theorem turn_obey (c : Command) :
    Turn settings w stamp id (.command c) (w.told settings stamp id (.command c)) (w.campaign? id)
      ((w.obey settings stamp c).campaign? id) := by
  by_cases accepted : w.Accepts settings stamp c
  swap
  · rw [told_of_not_accepts accepted, obey_of_not_accepts accepted]
    exact .pass _ _
  cases c with
  | records c =>
    simp only [told, note?, if_pos accepted, Command.note?, obey, campaign?,
      (w.store.obey_frame stamp c).1]
    exact .pass _ _
  | create user r =>
    rw [told_of_accepts accepted rfl]
    rcases w.createCampaign_cases stamp user r with ⟨f, h⟩ | h
    · exact absurd (congrArg (·.verdict.1) h) (accepted.ne_error f)
    · simp only [obey, h, campaign?, Store.campaigns_filed, Table.find?_put]
      by_cases here : stamp.id = id
      · rw [if_pos here, if_pos (show (newCampaign _ _ _ stamp).id = id from here)]
        exact .create user r _ here
      · rw [if_neg here, if_neg (show (newCampaign _ _ _ stamp).id ≠ id from here)]
        exact .pass _ _
  | update user key r =>
    rw [told_of_accepts accepted rfl]
    rcases w.updateCampaign_cases stamp user key r with
      ⟨f, h⟩ | ⟨c, found, editable, assignable, h⟩
    · exact absurd (congrArg (·.verdict.1) h) (accepted.ne_error f)
    · simp only [obey, h]
      exact .of_put found rfl fun here ↦ here ▸ .update user r editable assignable
  | delete user key =>
    rw [told_of_accepts accepted rfl]
    rcases w.deleteCampaign_cases stamp user key with ⟨f, h⟩ | ⟨c, found, deletable, h⟩
    · exact absurd (congrArg (·.verdict.1) h) (accepted.ne_error f)
    · simp only [obey, h, campaign?, Store.campaigns_filed, Table.find?_erase]
      by_cases here : key = id
      · subst here
        rw [if_pos rfl, if_pos rfl, ← campaign?, found]
        exact .delete user deletable
      · rw [if_neg here, if_neg (Ne.symm here)]
        exact .pass _ _
  | start user key =>
    rw [told_of_accepts accepted rfl]
    rcases w.startCampaign_cases settings stamp user key with
      ⟨f, h⟩ | ⟨c, run, found, startable, -, h⟩
    · exact absurd (congrArg (·.verdict.1) h) (accepted.ne_error f)
    · simp only [obey, h]
      exact .of_put found rfl fun here ↦ here ▸ .start user run startable
  | pause user key =>
    rw [told_of_accepts accepted rfl]
    rcases w.pauseCampaign_cases stamp user key with ⟨f, h⟩ | ⟨c, found, running, h⟩
    · exact absurd (congrArg (·.verdict.1) h) (accepted.ne_error f)
    · simp only [obey, h]
      exact .of_put found rfl fun here ↦ here ▸ .pause user running

theorem turn_goOff (t : Timer) :
    Turn settings w stamp id (.timer t) (w.told settings stamp id (.timer t)) (w.campaign? id)
      ((w.goOff stamp t).campaign? id) := by
  simp only [goOff, campaign?, told, note?]
  rcases completeRun_cases stamp t.campaign w.store t.run with
    ⟨h, -⟩ | ⟨c, found, -, running, h⟩
  · rw [h]
    exact .pass _ _
  · rw [h]
    exact .of_put found rfl fun _ ↦ .complete t running

/-- Every event is a turn of every campaign. -/
theorem turn_after (e : Event) :
    Turn settings w stamp id e (w.told settings stamp id e) (w.campaign? id)
      ((w.after settings stamp e).campaign? id) :=
  match e with
  | .command c => turn_obey settings w stamp id c
  | .timer t => turn_goOff settings w stamp id t

end Crm

end Outreach
