import Mathlib.Data.Set.Card
import Outreach.Proofs.Audience.Evaluation
import Outreach.Proofs.Campaign.Timers
import Outreach.Proofs.Crm.Turns
import Outreach.Proofs.Table

/-!
# The size of an audience as a snapshot

The size that is kept with a campaign was counted at one event: when the campaign was made, when it
last got rules, or when it was last started, whichever came last. It was counted over the customers
of that moment, and nothing that happens to customers, orders or the campaign itself changes it
until the next such event. The figures of a run are changed by starts alone.
-/

namespace Outreach

/-! ## Counting -/

/-- The active customers of a store that the direct reading of rules lets through. -/
def Store.audience (s : Store) (rules : List Rule) : Set Customer :=
  {c | c ∈ s.customers.rows ∧ c.isActive = true ∧ Rule.LetsThrough rules c}

/-- Nobody is counted twice, because no two customers have one identity. -/
theorem Store.ncard_audience (s : Store) (rules : List Rule) :
    (s.audience rules).ncard = Audience.size s.customers.rows rules := by
  classical
  have members : s.audience rules =
      ((s.customers.rows.filter (Audience.admits (Rule.group rules))).toFinset : Set Customer) := by
    ext c
    simp [Store.audience, Audience.admits_iff]
  rw [members, Set.ncard_coe_finset, List.toFinset_card_of_nodup (s.customers.nodup_rows.filter _),
    Audience.size, List.countP_eq_length_filter]

theorem Crm.audienceSize_eq (s : Store) (rules : List Rule) :
    audienceSize s rules = (s.audience rules).ncard.toUInt64 := by
  rw [Store.ncard_audience]
  rfl

namespace Crm

variable {settings : Settings.Campaigns} {w : Crm} {stamp : Stamp} {id : Id} {e : Event}

/-! ## Events that count -/

/-- The command is one for which the audience of a campaign is counted: it makes the campaign, gives
it rules, or starts it. -/
def Command.Counts (stamp : Stamp) (id : Id) : Command → Prop
  | .create _ _ => stamp.id = id
  | .update _ key r => key = id ∧ r.audienceRules.isSome = true
  | .start _ key => key = id
  | _ => False

/-- The audience of a campaign is counted at an event, which is a command of that kind that is
carried out. -/
def Counts (settings : Settings.Campaigns) (w : Crm) (stamp : Stamp) (id : Id) : Event → Prop
  | .command c => c.Counts stamp id ∧ w.Accepts settings stamp c
  | .timer _ => False

/-- What is counted for a campaign is something that was done to it. -/
theorem Counts.told_ne_none (h : w.Counts settings stamp id e) :
    w.told settings stamp id e ≠ none := by
  cases e with
  | timer t => cases h
  | command c =>
    obtain ⟨counts, accepted⟩ := h
    cases c with
    | create user r => simp [told_of_accepts_here accepted rfl counts]
    | update user key r => simp [told_of_accepts_here accepted rfl counts.1]
    | start user key => simp [told_of_accepts_here accepted rfl counts]
    | records c => cases counts
    | delete user key => cases counts
    | pause user key => cases counts

/-- What was done to a campaign by a command was carried out. -/
theorem accepts_of_told {c : Command} (h : w.told settings stamp id (.command c) ≠ none) :
    w.Accepts settings stamp c := by
  by_contra refused
  exact h (told_of_not_accepts refused)

/-- After an event, a campaign has a size that was counted at the event for the rules that it has,
or the size and the rules that it had before. -/
theorem size_after {c' : Campaign} (found : (w.after settings stamp e).campaign? id = some c') :
    w.Counts settings stamp id e ∧ c'.audienceSize = audienceSize w.store c'.audienceRules ∨
    ¬w.Counts settings stamp id e ∧ ∃ c, w.campaign? id = some c ∧
      c'.audienceSize = c.audienceSize ∧ c'.audienceRules = c.audienceRules := by
  have turn := turn_after settings w stamp id e
  rw [found] at turn
  generalize told : w.told settings stamp id e = a, before : w.campaign? id = x at turn
  have carried {c : Command} (he : e = .command c) (ha : a ≠ none) :
      w.Accepts settings stamp c := by
    subst he
    exact accepts_of_told (told ▸ ha)
  cases turn with
  | pass => exact .inr ⟨fun counts ↦ counts.told_ne_none told, c', rfl, rfl, rfl⟩
  | create user r _ here => exact .inl ⟨⟨here, carried rfl (Option.some_ne_none _)⟩, rfl⟩
  | @update user r c editable assignable =>
    cases rules : r.audienceRules with
    | none =>
      refine .inr ⟨?_, c, rfl, ?_, ?_⟩
      · rintro ⟨⟨-, given⟩, -⟩
        simp [rules] at given
      · simp [edited, rules]
      · simp [edited, rules]
    | some new =>
      refine .inl ⟨⟨⟨rfl, by simp [rules]⟩, carried rfl (Option.some_ne_none _)⟩, ?_⟩
      simp [edited, rules]
  | start user run startable => exact .inl ⟨⟨rfl, carried rfl (Option.some_ne_none _)⟩, rfl⟩
  | @pause user c running =>
    refine .inr ⟨?_, c, rfl, rfl, rfl⟩
    rintro ⟨⟨⟩, -⟩
  | @complete t c running =>
    refine .inr ⟨?_, c, rfl, rfl, rfl⟩
    rintro ⟨⟩

/-! ## What changes a size or figures -/

section Changes

variable {c c' : Campaign} (found : w.campaign? id = some c)
  (found' : (w.after settings stamp e).campaign? id = some c') (other : madeBy (stamp, e) ≠ some id)
include found found' other

/-- Only new rules and starts change the size that is kept with a campaign. -/
theorem counted_of_audienceSize_ne (changed : c'.audienceSize ≠ c.audienceSize) :
    (∃ user r, e = .command (.update user id r) ∧ r.audienceRules.isSome = true ∧
      w.Accepts settings stamp (.update user id r)) ∨
    ∃ user, e = .command (.start user id) ∧ w.Accepts settings stamp (.start user id) := by
  rcases size_after found' with ⟨counts, -⟩ | ⟨-, d, hd, same, -⟩
  · cases e with
    | timer t => cases counts
    | command k =>
      obtain ⟨counts, accepted⟩ := counts
      cases k with
      | create user r => exact absurd (congrArg some counts) other
      | update user key r =>
        obtain ⟨rfl, given⟩ := counts
        exact .inl ⟨user, r, rfl, given, accepted⟩
      | start user key =>
        obtain rfl : key = id := counts
        exact .inr ⟨user, rfl, accepted⟩
      | records k => cases counts
      | delete user key => cases counts
      | pause user key => cases counts
  · obtain rfl : c = d := Option.some.inj (found.symm.trans hd)
    exact absurd same changed

/-- Only starts change the figures of a campaign. -/
theorem started_of_stats_ne (changed : c'.stats ≠ c.stats) :
    ∃ user, e = .command (.start user id) ∧ w.Accepts settings stamp (.start user id) := by
  have turn := turn_after settings w stamp id e
  rw [found, found'] at turn
  generalize told : w.told settings stamp id e = a at turn
  cases turn with
  | pass => exact absurd rfl changed
  | create user r _ here => exact absurd (congrArg some here) other
  | update => exact absurd rfl changed
  | start user run startable =>
    have done : w.told settings stamp id (.command (.start user id)) ≠ none := by simp [told]
    exact ⟨user, rfl, accepts_of_told done⟩
  | pause => exact absurd rfl changed
  | complete => exact absurd rfl changed

end Changes

/-! ## The latest count -/

/-- An event of a run is the latest at which the audience of a campaign is counted. -/
structure LatestCount (settings : Settings.Campaigns) (w₀ : Crm) (id : Id)
    (past : List (Stamp × Event)) (e : Stamp × Event) (since : List (Stamp × Event)) : Prop where
  counts : (w₀.run settings past).Counts settings e.1 id e.2
  /-- It is not counted at any event since. -/
  latest : ∀ between f, between ++ [f] <+: since →
    ¬(w₀.run settings (past ++ e :: between)).Counts settings f.1 id f.2

variable {w₀ : Crm}

/-- The latest count stays the latest if the next event does not count. -/
theorem LatestCount.concat {past since : List (Stamp × Event)} {e f : Stamp × Event}
    (h : LatestCount settings w₀ id past e since)
    (idle : ¬(w₀.run settings (past ++ e :: since)).Counts settings f.1 id f.2) :
    LatestCount settings w₀ id past e (since ++ [f]) where
  counts := h.counts
  latest := by
    intro between g part
    rcases List.prefix_concat_iff.mp part with whole | part
    · obtain ⟨rfl, last⟩ := List.append_inj' whole rfl
      cases last
      exact idle
    · exact h.latest between g part

/-- A campaign that was not there in the beginning has a latest count, at which it already had the
rules that it has, and its size is what was counted. -/
theorem exists_latestCount (absent : w₀.campaign? id = none) (events : List (Stamp × Event)) :
    ∀ c, (w₀.run settings events).campaign? id = some c →
      ∃ past e since, events = past ++ e :: since ∧ LatestCount settings w₀ id past e since ∧
        (∃ c', (w₀.run settings (past ++ [e])).campaign? id = some c' ∧
          c'.audienceRules = c.audienceRules) ∧
        c.audienceSize = audienceSize (w₀.run settings past).store c.audienceRules := by
  -- from the end of the run backwards to the event at which the size was counted
  induction events using List.reverseRecOn with
  | nil =>
    intro c found
    rw [run_nil, absent] at found
    cases found
  | append_singleton events e ih =>
    intro c found
    have found' := found
    rw [run_append, run_cons, run_nil] at found'
    rcases size_after found' with ⟨counts, size⟩ | ⟨idle, d, before, size, rules⟩
    · refine ⟨events, e, [], rfl, ⟨counts, ?_⟩, ⟨c, found, rfl⟩, size⟩
      intro between f part
      simp at part
    · obtain ⟨past, f, since, rfl, latest, ⟨c', after, same⟩, size'⟩ := ih d before
      refine ⟨past, f, since ++ [e], by simp, latest.concat idle, ⟨c', after, ?_⟩, ?_⟩
      · rw [same, rules]
      · rw [size, size', rules]

/-! ## All runs -/

/-- In every state of a run, the size that is kept with a campaign that the run has made is the
number of active customers whom the rules of the campaign let through, as the customers stood at the
latest event at which the audience was counted: when the campaign was made, when it got the rules,
or when it was started. In every step, only new rules and starts change the size of a campaign that
is there, and only starts change its figures. -/
theorem audienceSize_snapshot (settings : Settings.Campaigns) (w₀ : Crm)
    (events : List (Stamp × Event)) (fresh : Fresh w₀ events) :
    (∀ id ∈ made events, ∀ c, (w₀.run settings events).campaign? id = some c →
      ∃ past e since, events = past ++ e :: since ∧ LatestCount settings w₀ id past e since ∧
        (∃ c', (w₀.run settings (past ++ [e])).campaign? id = some c' ∧
          c'.audienceRules = c.audienceRules) ∧
        let n := ((w₀.run settings past).store.audience c.audienceRules).ncard
        c.audienceSize = n.toUInt64 ∧ (n < 2 ^ 64 → c.audienceSize.toNat = n)) ∧
    ∀ past stamp e future, events = past ++ (stamp, e) :: future →
      let w := w₀.run settings past
      ∀ id c c', w.campaign? id = some c → (w.after settings stamp e).campaign? id = some c' →
        (c'.audienceSize ≠ c.audienceSize →
          (∃ user r, e = .command (.update user id r) ∧ r.audienceRules.isSome = true ∧
            w.Accepts settings stamp (.update user id r)) ∨
          ∃ user, e = .command (.start user id) ∧ w.Accepts settings stamp (.start user id)) ∧
        (c'.stats ≠ c.stats →
          ∃ user, e = .command (.start user id) ∧ w.Accepts settings stamp (.start user id)) := by
  constructor
  · intro id hid c found
    obtain ⟨past, e, since, split, latest, rules, size⟩ :=
      exists_latestCount (fresh.unknown id hid) events c found
    rw [audienceSize_eq] at size
    refine ⟨past, e, since, split, latest, rules, size, fun fits ↦ ?_⟩
    rw [size]
    exact UInt64.toNat_ofNat_of_lt' fits
  · rintro past stamp e future rfl w id c c' found found'
    have fresh' : Fresh w ((stamp, e) :: future) := fresh.right
    have other : madeBy (stamp, e) ≠ some id :=
      madeBy_ne List.mem_cons_self (fresh'.notMem_made found)
    exact ⟨counted_of_audienceSize_ne found found' other, started_of_stats_ne found found' other⟩

/-- Two customers come, one before a campaign is made and one after; the campaign is started, and
then the first customer goes. -/
def comingAndGoing : List (Stamp × Event) :=
  [(tick 1, .command (.records (.createCustomer (newcomer "Ann" "ann@xeno.in")))),
    (tick 2, .command (.create someone offer)),
    (tick 3, .command (.records (.createCustomer (newcomer "Bob" "bob@xeno.in")))),
    (tick 4, .command (.start someone ⟨2⟩)),
    (tick 5, .command (.records (.deleteCustomer ⟨1⟩)))]

/-- The campaign keeps the size that was counted when it was started. -/
theorem audienceSize_snapshot_comingAndGoing :
    Fresh .empty comingAndGoing ∧ ∃ c,
      (Crm.empty.run .usual comingAndGoing).campaign? ⟨2⟩ = some c ∧ c.audienceSize = 2 ∧
      ∃ past e since, comingAndGoing = past ++ e :: since ∧ LatestCount .usual .empty ⟨2⟩ past e since ∧
        c.audienceSize = (((Crm.empty.run .usual past).store.audience c.audienceRules).ncard).toUInt64 := by
  have fresh : Fresh .empty comingAndGoing := ⟨by decide, fun _ _ ↦ rfl⟩
  have kept : ((Crm.empty.run .usual comingAndGoing).campaign? ⟨2⟩).map (·.audienceSize) = some 2 := by
    decide +kernel
  obtain ⟨c, found, two⟩ := Option.map_eq_some_iff.mp kept
  obtain ⟨snapshot, -⟩ := audienceSize_snapshot .usual .empty comingAndGoing fresh
  obtain ⟨past, e, since, split, latest, -, size, -⟩ := snapshot ⟨2⟩ (by decide) c found
  exact ⟨fresh, c, found, two, past, e, since, split, latest, size⟩

end Crm

end Outreach
