import Outreach.Proofs.Campaign.Timers
import Outreach.Proofs.Crm.Turns
import Outreach.Proofs.Identity
import Outreach.Proofs.Sorting

/-!
# The life of a campaign as the audit log tells it

The actions that the audit log holds about a campaign, from the oldest to the newest, are a word. At
every moment this word agrees with where the campaign stands, and therefore it tells a life that a
campaign can have: it is made once and first, its runs end by a pause or a completion before
anything else is done to it, between two runs it is edited, and what is completed can only be
deleted.

The word and the status go along with each other (`Agrees`): for each action there is a lemma that
tells how both go on, and a turn of the campaign takes one of these steps.
-/

namespace Outreach

/-! ## Words -/

namespace Audit

variable {as : List Action} {a : Action}

/-- An action may come after others. -/
structure Fits (before : List Action) (a : Action) : Prop where
  /-- A campaign is made first, and only then. -/
  create : a = .create ↔ before = []
  /-- A pause and a completion come immediately after a start. -/
  ends_run : a = .pause ∨ a = .complete → before.getLast? = some .start
  /-- After a start comes a pause or a completion. -/
  after_start : before.getLast? = some .start → a = .pause ∨ a = .complete
  /-- Between two starts comes a pause and behind it an edit. -/
  restart : a = .start → ∀ between, .start :: between <:+ before →
    List.Sublist [.pause, .update] between
  /-- After a completion comes a deletion and nothing else. -/
  after_complete : .complete ∈ before → a = .delete
  after_delete : .delete ∉ before

/-- Every action of a word may come after those in front of it. -/
def IsLife (as : List Action) : Prop := ∀ before a, before ++ [a] <+: as → Fits before a

theorem isLife_nil : IsLife [] := by
  intro before a part
  simp at part

theorem IsLife.concat (h : IsLife as) (fits : Fits as a) : IsLife (as ++ [a]) := by
  intro before b part
  rcases List.prefix_concat_iff.mp part with whole | part
  · obtain ⟨rfl, last⟩ := List.append_inj' whole rfl
    cases last
    exact fits
  · exact h before b part

/-- What came after a start and in front of another action. -/
theorem exists_of_start_suffix_concat {between : List Action} (other : a ≠ .start)
    (h : .start :: between <:+ as ++ [a]) : ∃ b, between = b ++ [a] ∧ .start :: b <:+ as := by
  rcases List.suffix_concat_iff.mp h with none | ⟨front, split, part⟩
  · cases none
  · cases front with
    | nil =>
      cases split
      exact absurd rfl other
    | cons first b =>
      cases split
      exact ⟨b, rfl, part⟩

end Audit

open Audit (Fits IsLife)

/-! ## Words and statuses -/

/-- A word agrees with the status of a campaign, or with its absence. -/
structure Audit.Agrees (as : List Action) (s : Option Campaign.Status) : Prop where
  life : IsLife as
  /-- There is nothing to be told about a campaign that never was. -/
  begun : s ≠ none → as ≠ []
  /-- The campaign runs since its last action was a start. -/
  running : as.getLast? = some .start ↔ s = some .running
  /-- It has been completed, or deleted since. -/
  completed : .complete ∈ as → s = none ∨ s = some .completed
  deleted : .delete ∈ as → s = none
  /-- Away from runs, every run was broken off, and edited since unless the campaign is paused. -/
  resting : ∀ st, s = some st → st ≠ .running → st ≠ .completed →
    ∀ between, .start :: between <:+ as →
      .pause ∈ between ∧ (st ≠ .paused → List.Sublist [.pause, .update] between)

namespace Audit.Agrees

variable {as : List Action} {a : Action} {s : Campaign.Status} {s' : Option Campaign.Status}

theorem blank : Agrees [] none where
  life := isLife_nil
  begun absent := absurd rfl absent
  running := by simp
  completed := by simp
  deleted := by simp
  resting := nofun

/-- Runs are ended while the campaign runs, begun only after it was edited, and what is completed
can only be deleted; what keeps to this fits. -/
theorem fits (h : Agrees as (some s)) (late : a ≠ .create)
    (ending : a = .pause ∨ a = .complete ↔ s = .running)
    (starting : a = .start → s ≠ .running ∧ s ≠ .completed ∧ s ≠ .paused)
    (final : s = .completed → a = .delete) : Fits as a where
  create := iff_of_false late (h.begun nofun)
  ends_run ends := h.running.mpr (congrArg some (ending.mp ends))
  after_start last := ending.mpr (Option.some.inj (h.running.mp last))
  restart begins between part := by
    obtain ⟨unrunning, uncompleted, unpaused⟩ := starting begins
    exact (h.resting s rfl unrunning uncompleted between part).2 unpaused
  after_complete mem := final (Option.some.inj ((h.completed mem).resolve_left nofun))
  after_delete mem := nomatch h.deleted mem

/-- How an agreement goes on with an action that fits. -/
theorem concat (h : Agrees as (some s)) (fits : Fits as a)
    (running : a = .start ↔ s' = some .running)
    (completed : a = .complete → s' = some .completed) (deleted : a = .delete → s' = none)
    (resting : ∀ st, s' = some st → st ≠ .running → st ≠ .completed →
      ∀ between, .start :: between <:+ as → .pause ∈ between ++ [a] ∧
        (st ≠ .paused → List.Sublist [.pause, .update] (between ++ [a]))) :
    Agrees (as ++ [a]) s' where
  life := h.life.concat fits
  begun _ := by simp
  running := by simpa using running
  completed mem := by
    rcases List.mem_append.mp mem with earlier | now
    · exact .inl (deleted (fits.after_complete earlier))
    · exact .inr (completed (List.mem_singleton.mp now).symm)
  deleted mem := by
    rcases List.mem_append.mp mem with earlier | now
    · exact absurd earlier fits.after_delete
    · exact deleted (List.mem_singleton.mp now).symm
  resting := by
    intro st hs unrunning uncompleted between part
    have other : a ≠ .start := by
      intro begins
      rw [running.mp begins] at hs
      exact unrunning (Option.some.inj hs).symm
    obtain ⟨b, rfl, before⟩ := exists_of_start_suffix_concat other part
    exact resting st hs unrunning uncompleted b before

theorem create : Agrees [.create] (some .draft) where
  life := by
    refine isLife_nil.concat ⟨by simp, ?_, ?_, ?_, ?_, ?_⟩ <;> simp
  begun _ := by simp
  running := by simp
  completed := by simp
  deleted := by simp
  resting := by
    intro st _ _ _ between part
    simp [List.suffix_cons_iff] at part

theorem update (h : Agrees as (some s)) (editable : s ≠ .running ∧ s ≠ .completed)
    {s' : Campaign.Status} (given : s' ≠ .running) : Agrees (as ++ [.update]) (some s') := by
  have fits : Fits as .update := by
    refine h.fits nofun ?_ nofun ?_
    · simp [editable.1]
    · exact fun done ↦ absurd done editable.2
  refine h.concat fits (by simp [given]) nofun nofun ?_
  intro st _ _ _ between part
  have paused : .pause ∈ between := (h.resting s rfl editable.1 editable.2 between part).1
  refine ⟨List.mem_append_left _ paused, fun _ ↦ ?_⟩
  exact (List.singleton_sublist.mpr paused).append (List.Sublist.refl [Action.update])

theorem delete (h : Agrees as (some s)) (deletable : s ≠ .running) :
    Agrees (as ++ [.delete]) none := by
  have fits : Fits as .delete := by
    refine h.fits nofun ?_ nofun fun _ ↦ rfl
    simp [deletable]
  exact h.concat fits (by simp) nofun (fun _ ↦ rfl) nofun

theorem start (h : Agrees as (some s)) (startable : s = .draft ∨ s = .scheduled) :
    Agrees (as ++ [.start]) (some .running) := by
  have fits : Fits as .start := by
    refine h.fits nofun ?_ (fun _ ↦ ?_) ?_ <;> rcases startable with rfl | rfl <;> simp
  refine h.concat fits (by simp) nofun nofun ?_
  rintro _ ⟨⟩ unrunning
  exact absurd rfl unrunning

theorem pause (h : Agrees as (some .running)) : Agrees (as ++ [.pause]) (some .paused) := by
  have fits : Fits as .pause := h.fits nofun (by simp) nofun nofun
  refine h.concat fits (by simp) nofun nofun ?_
  rintro _ ⟨⟩ - - between -
  exact ⟨by simp, fun unpaused ↦ absurd rfl unpaused⟩

theorem complete (h : Agrees as (some .running)) :
    Agrees (as ++ [.complete]) (some .completed) := by
  have fits : Fits as .complete := h.fits nofun (by simp) nofun nofun
  refine h.concat fits (by simp) (fun _ ↦ rfl) nofun ?_
  rintro _ ⟨⟩ - uncompleted
  exact absurd rfl uncompleted

end Audit.Agrees

/-! ## The log about one campaign -/

namespace Audit

variable {id : Id} {stamp : Stamp}

/-- An entry is about the campaign with an identity. -/
def Entry.IsAbout (id : Id) (e : Entry) : Prop :=
  e.resourceType = "campaign" ∧ e.resourceId = id.text

instance (e : Entry) : Decidable (e.IsAbout id) := inferInstanceAs (Decidable (_ ∧ _))

/-- What the entries of a log tell about a campaign. -/
def actionsOn (id : Id) (log : List Entry) : List Action :=
  (log.filter (·.IsAbout id)).map (·.action)

theorem isAbout_entry {n : Note} {details : Json} :
    (n.entry stamp details).IsAbout id ↔ n.campaign = id := by
  simp [Entry.IsAbout, Note.entry, Id.text_injective.eq_iff]

theorem actionsOn_entry (n : Note) (details : Json) :
    actionsOn id [n.entry stamp details] = if n.campaign = id then [n.action] else [] := by
  by_cases here : n.campaign = id
  · rw [actionsOn, List.filter_singleton, decide_eq_true (isAbout_entry.mpr here), if_pos here]
    rfl
  · rw [actionsOn, List.filter_singleton, decide_eq_false (mt isAbout_entry.mp here), if_neg here]
    rfl

theorem actionsOn_append (log log' : List Entry) :
    actionsOn id (log ++ log') = actionsOn id log ++ actionsOn id log' := by
  simp [actionsOn]

end Audit

namespace Crm

open Audit (actionsOn Agrees)

variable {settings : Settings.Campaigns} {w : Crm} {stamp : Stamp} {id : Id} {e : Event}

/-- An event adds to the word of a campaign what it says was done to the campaign. -/
theorem actionsOn_after (settings : Settings.Campaigns) (w : Crm) (stamp : Stamp) (id : Id)
    (e : Event) :
    actionsOn id (w.after settings stamp e).store.audit =
      actionsOn id w.store.audit ++ (w.told settings stamp id e).toList := by
  have keeps := keeps_after settings w stamp e
  unfold told
  cases note : w.note? settings stamp e with
  | none =>
    rw [note] at keeps
    rw [show _ = _ from keeps]
    simp
  | some n =>
    rw [note] at keeps
    obtain ⟨details, keeps⟩ := keeps
    rw [keeps, Audit.actionsOn_append, Audit.actionsOn_entry]
    by_cases here : n.campaign = id <;> simp [here]

/-- A turn of a campaign takes the word and the status along. -/
theorem Turn.agrees {a : Option Audit.Action} {x y : Option Campaign} {as : List Audit.Action}
    (turn : Turn settings w stamp id e a x y) (h : Agrees as (x.map (·.status)))
    (unmade : madeBy (stamp, e) = some id → as = []) :
    Agrees (as ++ a.toList) (y.map (·.status)) := by
  cases turn with
  | pass => simpa using h
  | create user r _ here =>
    rw [unmade (congrArg some here)]
    exact .create
  | update user r editable assignable =>
    refine h.update editable fun running ↦ ?_
    exact editable.1 (status_of_edited assignable running rfl)
  | delete user deletable => exact h.delete deletable
  | start user run startable => exact h.start startable
  | pause user running =>
    rw [Option.map_some, running] at h
    exact h.pause
  | complete t running =>
    rw [Option.map_some, running] at h
    exact h.complete

/-- About a campaign that is not there and is not made, nothing is said. -/
theorem Turn.silent {a : Option Audit.Action} {y : Option Campaign}
    (turn : Turn settings w stamp id e a none y) (other : madeBy (stamp, e) ≠ some id) :
    a = none := by
  cases turn with
  | pass => rfl
  | create user r _ here => exact absurd (congrArg some here) other

/-- If no identity is given twice, and nothing has been said about the campaign before it is made,
its word agrees with its status after a run if it did before. -/
theorem agrees_run {events : List (Stamp × Event)} (nodup : (made events).Nodup)
    (unmade : id ∈ made events → actionsOn id w.store.audit = [])
    (h : Agrees (actionsOn id w.store.audit) ((w.campaign? id).map (·.status))) :
    Agrees (actionsOn id (w.run settings events).store.audit)
      (((w.run settings events).campaign? id).map (·.status)) := by
  induction events generalizing w with
  | nil => exact h
  | cons e events ih =>
    obtain ⟨stamp, e⟩ := e
    have turn := turn_after settings w stamp id e
    have word := actionsOn_after settings w stamp id e
    have nodup' : (made events).Nodup := by
      rw [← List.singleton_append, made_append] at nodup
      exact (List.nodup_append.mp nodup).2.1
    refine ih nodup' (fun coming ↦ ?_) ?_
    · -- The campaign is made later on, so it is not made now, and nothing is said about it yet.
      have other : madeBy (stamp, e) ≠ some id := by
        intro now
        have twice : made ((stamp, e) :: events) = id :: made events := by simp [made, now]
        rw [twice] at nodup
        exact (List.nodup_cons.mp nodup).1 coming
      have blank : actionsOn id w.store.audit = [] := by
        apply unmade
        rw [← List.singleton_append, made_append]
        exact List.mem_append_right _ coming
      have absent : w.campaign? id = none := by
        by_contra present
        exact h.begun (by simpa using present) blank
      rw [absent] at turn
      simp [word, blank, turn.silent other]
    · rw [word]
      refine turn.agrees h fun now ↦ unmade ?_
      exact List.mem_filterMap.mpr ⟨_, List.mem_cons_self, now⟩

/-! ## The log in the order of time -/

/-- A run adds entries to the log, which are written when its events happen. -/
theorem entries_run (settings : Settings.Campaigns) (w : Crm) (events : List (Stamp × Event)) :
    ∃ entries, (w.run settings events).store.audit = w.store.audit ++ entries ∧
      List.Sublist (entries.map (·.timestamp)) (events.map (·.1.now)) := by
  induction events generalizing w with
  | nil => exact ⟨[], by simp, by simp⟩
  | cons e events ih =>
    obtain ⟨stamp, e⟩ := e
    obtain ⟨entries, audit, times⟩ := ih (w.after settings stamp e)
    have keeps := keeps_after settings w stamp e
    rw [run_cons, audit]
    cases note : w.note? settings stamp e with
    | none =>
      rw [note] at keeps
      rw [show _ = _ from keeps]
      exact ⟨entries, rfl, times.cons _⟩
    | some n =>
      rw [note] at keeps
      obtain ⟨details, keeps⟩ := keeps
      refine ⟨n.entry stamp details :: entries, by simp [keeps], ?_⟩
      exact times.cons_cons stamp.now

end Crm

theorem Audit.Entry.laterFirst_comparesBy :
    ComparesBy laterFirst fun e ↦ OrderDual.toDual e.timestamp := fun _ _ ↦ Iff.rfl

/-- Entries that were written one after the other are shown the other way round. -/
theorem Store.actionsOn_auditLog {s : Store} {id : Id}
    (ascending : (s.audit.filter (·.IsAbout id)).Pairwise fun a b ↦ a.timestamp < b.timestamp) :
    Audit.actionsOn id s.auditLog.reverse = Audit.actionsOn id s.audit := by
  have same : (s.auditLog.reverse.filter (·.IsAbout id)).Perm (s.audit.filter (·.IsAbout id)) := by
    apply List.Perm.filter
    exact ((List.reverse_perm _).trans (List.mergeSort_perm _ _)).trans (List.reverse_perm _)
  have shown : (s.auditLog.reverse.filter (·.IsAbout id)).Pairwise
      fun a b ↦ a.timestamp ≤ b.timestamp := by
    apply List.Pairwise.filter
    exact List.pairwise_reverse.mpr (Audit.Entry.laterFirst_comparesBy.pairwise_le _)
  have apart : ((s.audit.filter (·.IsAbout id)).map (·.timestamp)).Nodup :=
    List.pairwise_map.mpr (ascending.imp fun lt ↦ ne_of_lt lt)
  unfold Audit.actionsOn
  congr 1
  refine same.eq_of_pairwise ?_ shown (ascending.imp le_of_lt)
  intro a b ha hb hab hba
  exact List.inj_on_of_nodup_map apart (same.mem_iff.mp ha) hb (le_antisymm hab hba)

/-! ## All runs -/

namespace Crm

open Audit (actionsOn Agrees IsLife)

/-- Nothing has been written about the campaigns that a run is to make. -/
def Unheard (w : Crm) (events : List (Stamp × Event)) : Prop :=
  ∀ id ∈ made events, ∀ entry ∈ w.store.audit, ¬entry.IsAbout id

/-- In every run, each event keeps in the audit log what it has to say, once and behind everything
that was there: each command about campaigns that is carried out, in the name of its user, and each
timer that has an effect, which is a completion in the name of the system; all else keeps nothing,
and nothing that has been kept is changed or lost. Consequently, if the clock advances from event to
event, what the log shows about a campaign that the run makes, read from the oldest entry to the
newest, is a life that a campaign can have. -/
theorem auditLog_tells_lives (settings : Settings.Campaigns) (w₀ : Crm)
    (events : List (Stamp × Event)) (fresh : Fresh w₀ events) (unheard : w₀.Unheard events) :
    (∀ past stamp e future, events = past ++ (stamp, e) :: future →
      let w := w₀.run settings past
      w.store.Keeps (w.after settings stamp e).store stamp (w.note? settings stamp e) ∧
      ∀ t, e = .timer t → (w.note? settings stamp e = none ↔
        (w.after settings stamp e).store = w.store)) ∧
    (∀ past future, events = past ++ future →
      (w₀.run settings past).store.audit <+: (w₀.run settings events).store.audit) ∧
    ((events.map (·.1.now)).Pairwise (· < ·) → ∀ id ∈ made events,
      IsLife (actionsOn id (w₀.run settings events).store.auditLog.reverse)) := by
  refine ⟨?_, ?_, ?_⟩
  · rintro past stamp e future - w
    refine ⟨keeps_after settings w stamp e, ?_⟩
    rintro t rfl
    exact w.note?_timer_eq_none_iff stamp t
  · rintro past future rfl
    obtain ⟨entries, audit, -⟩ := entries_run settings (w₀.run settings past) future
    rw [run_append, audit]
    exact List.prefix_append _ _
  · intro ticking id hid
    have blank : actionsOn id w₀.store.audit = [] := by
      simpa [actionsOn] using unheard id hid
    have agrees : Agrees (actionsOn id (w₀.run settings events).store.audit)
        (((w₀.run settings events).campaign? id).map (·.status)) := by
      refine agrees_run fresh.nodup (fun _ ↦ blank) ?_
      rw [blank, fresh.unknown id hid]
      exact .blank
    rw [Store.actionsOn_auditLog]
    · exact agrees.life
    · -- Every entry about the campaign was written in the run, at the time of an event.
      obtain ⟨entries, audit, times⟩ := entries_run settings w₀ events
      have earlier : w₀.store.audit.filter (·.IsAbout id) = [] := by
        simpa using unheard id hid
      rw [audit, List.filter_append, earlier, List.nil_append]
      exact (List.pairwise_map.mp (ticking.sublist times)).filter _

/-- The log tells of the run that was broken off and of the one that was completed. -/
theorem auditLog_tells_lives_twoRuns :
    Fresh .empty twoRuns ∧ Crm.empty.Unheard twoRuns ∧ (twoRuns.map (·.1.now)).Pairwise (· < ·) ∧
      actionsOn ⟨1⟩ (Crm.empty.run .usual twoRuns).store.auditLog.reverse =
        [.create, .start, .pause, .update, .start, .complete] ∧
      IsLife [.create, .start, .pause, .update, .start, .complete] := by
  have unheard : Crm.empty.Unheard twoRuns := by
    intro id _ entry h
    cases h
  have ticking : (twoRuns.map (·.1.now)).Pairwise (· < ·) := by decide
  have word : actionsOn ⟨1⟩ (Crm.empty.run .usual twoRuns).store.auditLog.reverse =
      [.create, .start, .pause, .update, .start, .complete] := by
    -- Sorting does not compute here, but what is sorted is in order already.
    rw [Store.actionsOn_auditLog (by decide +kernel)]
    decide +kernel
  obtain ⟨-, -, lives⟩ := auditLog_tells_lives .usual .empty twoRuns fresh_twoRuns unheard
  have life := lives ticking ⟨1⟩ (by decide)
  rw [word] at life
  exact ⟨fresh_twoRuns, unheard, ticking, word, life⟩

end Crm

end Outreach
