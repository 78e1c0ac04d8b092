import Mathlib.Data.List.Induction
import Outreach.Login
import Outreach.Proofs.Calendar.Order
import Outreach.Proofs.Table

/-!
# Tokens

A token is good from the login that gave it out until this login expires or is ended. The desk
takes logins off its table on three occasions: when they are ended, when they are met and have
expired, and when all that have expired are purged. The last two never show, since what has expired
stays so.
-/

namespace Outreach

open Calendar

namespace Desk

/-! ## Calls -/

/-- What the desk is asked for. -/
inductive Call where
  | login (r : Login.Request)
  | verify (token : String)
  | logout (token : String)
  | purge

/-- Calls that begin and end logins; the others are questions and tidying up. -/
def Call.isWrite : Call → Bool
  | .login _ | .logout _ => true
  | .verify _ | .purge => false

def after (d : Desk) : Stamp × Call → Desk
  | (stamp, .login r) => (d.login stamp r).2
  | (stamp, .verify token) => (d.verify stamp.now token).2
  | (_, .logout token) => (d.logout token).2
  | (stamp, .purge) => (d.purge stamp.now).2

/-- The desk after a run of calls. -/
def run (d : Desk) (calls : List (Stamp × Call)) : Desk := calls.foldl after d

def gives? (d : Desk) : Stamp × Call → Option Login
  | (stamp, .login r) => (d.login stamp r).1.toOption
  | _ => none

/-- The logins that the calls of a run give, one after the other. -/
def given (d : Desk) (calls : List (Stamp × Call)) : List Login := calls.filterMap d.gives?

theorem run_concat (d : Desk) (calls : List (Stamp × Call)) (c : Stamp × Call) :
    d.run (calls ++ [c]) = (d.run calls).after c := by
  simp [run]

variable {d : Desk} {now : Instant} {token : String} {calls : List (Stamp × Call)} {l : Login}

/-! ## Single calls -/

/-- A login is refused and changes nothing, or its token, its user and its time are put into the
table. -/
theorem login_cases (d : Desk) (stamp : Stamp) (r : Login.Request) :
    (∃ f, d.login stamp r = (.error f, d)) ∨
      ∃ l : Login, l.token = stamp.token ∧ l.user = d.admin ∧
        stamp.now.addSeconds? d.lifetime = some l.expiresAt ∧
        d.login stamp r = (.ok l, { d with logins := d.logins.put l }) := by
  unfold login
  split
  · cases ends : stamp.now.addSeconds? d.lifetime with
    | none => exact .inl ⟨_, rfl⟩
    | some expiresAt => exact .inr ⟨_, rfl, rfl, rfl, rfl⟩
  · exact .inl ⟨_, rfl⟩

/-- A token is accepted if there is a login with it that has not expired. -/
theorem verify_eq_ok_iff {u : User} :
    (d.verify now token).1 = .ok u ↔
      ∃ l ∈ d.logins.rows, l.token = token ∧ now < l.expiresAt ∧ l.user = u := by
  unfold verify
  cases found : d.logins.find? token with
  | none =>
    have none_has := Table.find?_eq_none_iff.mp found
    constructor
    · rintro ⟨⟩
    · rintro ⟨l, hl, same, -⟩
      exact absurd same (none_has l hl)
  | some l =>
    obtain ⟨hl, rfl⟩ := Table.find?_eq_some_iff.mp found
    have only {l'} (hl' : l' ∈ d.logins.rows) (same : l'.token = l.token) : l' = l :=
      Table.eq_of_key_eq hl' hl same
    dsimp only
    split
    · next live =>
      constructor
      · rintro ⟨⟩
        exact ⟨l, hl, rfl, live, rfl⟩
      · rintro ⟨l', hl', same, -, rfl⟩
        rw [only hl' same]
    · next expired =>
      constructor
      · rintro ⟨⟩
      · rintro ⟨l', hl', same, live, -⟩
        rw [only hl' same] at live
        exact absurd live expired

/-- A token that is not accepted is refused, always in the same way. -/
theorem verify_cases (d : Desk) (now : Instant) (token : String) :
    (∃ u, (d.verify now token).1 = .ok u) ∨ (d.verify now token).1 = .error .badToken := by
  unfold verify
  split
  · exact .inr rfl
  · split
    · exact .inl ⟨_, rfl⟩
    · exact .inr rfl

/-- A token of which no login is good is refused, and an expired login with it is forgotten. -/
theorem verify_refused (dead : ∀ l ∈ d.logins.rows, l.token = token → l.expiresAt ≤ now) :
    ∃ d', d.verify now token = (.error .badToken, d') ∧
      (d' = d ∨ ∃ l ∈ d.logins.rows, l.token = token ∧ l.expiresAt ≤ now ∧
        d' = { d with logins := d.logins.erase token }) := by
  unfold verify
  cases found : d.logins.find? token with
  | none => exact ⟨d, rfl, .inl rfl⟩
  | some l =>
    obtain ⟨hl, same⟩ := Table.find?_eq_some_iff.mp found
    have expired : l.expiresAt ≤ now := dead l hl same
    have notLive : ¬l.isLive now = true := not_lt.mpr expired
    exact ⟨_, if_neg notLive, .inr ⟨l, hl, same, expired, rfl⟩⟩

/-- What is answered to a question is determined by the users who are accepted. -/
theorem verify_fst_ext {d' : Desk} {now' : Instant} {token' : String}
    (h : ∀ u, (d.verify now token).1 = .ok u ↔ (d'.verify now' token').1 = .ok u) :
    (d.verify now token).1 = (d'.verify now' token').1 := by
  rcases d.verify_cases now token with ⟨u, hu⟩ | he
  · rw [hu, (h u).mp hu]
  · rcases d'.verify_cases now' token' with ⟨u, hu⟩ | he'
    · rw [(h u).mpr hu, hu]
    · rw [he, he']

/-- A question about a token takes its login off the table if it has expired. -/
theorem mem_verify :
    l ∈ (d.verify now token).2.logins.rows ↔
      l ∈ d.logins.rows ∧ (l.token = token → now < l.expiresAt) := by
  unfold verify
  cases found : d.logins.find? token with
  | none =>
    have none_has := Table.find?_eq_none_iff.mp found
    exact (and_iff_left_of_imp fun hl same ↦ absurd same (none_has l hl)).symm
  | some l' =>
    obtain ⟨hl', rfl⟩ := Table.find?_eq_some_iff.mp found
    dsimp only
    split
    · next live =>
      refine (and_iff_left_of_imp fun hl same ↦ ?_).symm
      rw [Table.eq_of_key_eq hl hl' same]
      exact live
    · next expired =>
      rw [Table.mem_erase]
      refine and_congr_right fun hl ↦ ⟨fun other same ↦ absurd same other, fun live same ↦ ?_⟩
      have good := live same
      rw [Table.eq_of_key_eq hl hl' same] at good
      exact expired good

/-- Purging takes off the table what has expired. -/
theorem mem_purge :
    l ∈ (d.purge now).2.logins.rows ↔ l ∈ d.logins.rows ∧ now < l.expiresAt := by
  simp only [purge, Table.rows_filter, List.mem_filter]
  rfl

/-- Purging takes off the table exactly what a question would find expired. -/
theorem mem_purge_iff_verify :
    l ∈ (d.purge now).2.logins.rows ↔
      l ∈ d.logins.rows ∧ ∃ u, (d.verify now l.token).1 = .ok u := by
  rw [mem_purge]
  refine and_congr_right fun hl ↦ ?_
  constructor
  · intro live
    exact ⟨l.user, verify_eq_ok_iff.mpr ⟨l, hl, rfl, live, rfl⟩⟩
  · rintro ⟨u, accepted⟩
    obtain ⟨l', hl', same, live, -⟩ := verify_eq_ok_iff.mp accepted
    rw [← Table.eq_of_key_eq hl' hl same]
    exact live

/-! ## What a run leaves alone -/

/-- Two desks let the same people in, and for the same time. -/
structure SameTerms (d d' : Desk) : Prop where
  admin : d'.admin = d.admin
  password : d'.password = d.password
  lifetime : d'.lifetime = d.lifetime

theorem sameTerms_after (d : Desk) (c : Stamp × Call) : d.SameTerms (d.after c) := by
  obtain ⟨stamp, c⟩ := c
  cases c with
  | login r =>
    simp only [after]
    rcases d.login_cases stamp r with ⟨f, h⟩ | ⟨l, -, -, -, h⟩ <;> rw [h] <;> exact ⟨rfl, rfl, rfl⟩
  | verify token =>
    simp only [after, verify]
    split
    · exact ⟨rfl, rfl, rfl⟩
    · split <;> exact ⟨rfl, rfl, rfl⟩
  | logout token => exact ⟨rfl, rfl, rfl⟩
  | purge => exact ⟨rfl, rfl, rfl⟩

theorem sameTerms_run (d : Desk) (calls : List (Stamp × Call)) : d.SameTerms (d.run calls) := by
  induction calls using List.reverseRecOn with
  | nil => exact ⟨rfl, rfl, rfl⟩
  | append_singleton calls c ih =>
    rw [run_concat]
    have last := sameTerms_after (d.run calls) c
    exact ⟨last.admin.trans ih.admin, last.password.trans ih.password,
      last.lifetime.trans ih.lifetime⟩

/-- Whether a login is accepted, and what it gives, does not depend on the logins before it. -/
theorem SameTerms.login_fst {d' : Desk} (h : d.SameTerms d') (stamp : Stamp) (r : Login.Request) :
    (d'.login stamp r).1 = (d.login stamp r).1 := by
  unfold login
  rw [h.admin, h.password, h.lifetime]
  split
  · cases stamp.now.addSeconds? d.lifetime <;> rfl
  · rfl

theorem gives?_run (d : Desk) (calls : List (Stamp × Call)) (c : Stamp × Call) :
    (d.run calls).gives? c = d.gives? c := by
  obtain ⟨stamp, c⟩ := c
  cases c with
  | login r => simp only [gives?, (sameTerms_run d calls).login_fst]
  | _ => rfl

/-! ## Standing logins -/

/-- A login was given in a run and has not been ended since, whether or not it has expired. -/
def Standing (d : Desk) (calls : List (Stamp × Call)) (l : Login) : Prop :=
  ∃ past c since, calls = past ++ c :: since ∧ d.gives? c = some l ∧
    ∀ stamp, (stamp, .logout l.token) ∉ since

/-- A login stands after a call if the call has given it, or if it stood before and has not been
ended. -/
theorem standing_concat {c : Stamp × Call} :
    d.Standing (calls ++ [c]) l ↔
      d.gives? c = some l ∨ d.Standing calls l ∧ ∀ stamp, c ≠ (stamp, .logout l.token) := by
  constructor
  · rintro ⟨past, c', since, split, gave, unended⟩
    rcases List.eq_nil_or_concat since with rfl | ⟨since, c'', rfl⟩
    · have last : c = c' := (List.append_inj' split rfl).2 |> List.singleton_inj.mp
      exact .inl (last ▸ gave)
    · rw [List.concat_eq_append, ← List.cons_append, ← List.append_assoc] at split
      obtain ⟨rfl, last⟩ := List.append_inj' split rfl
      obtain rfl := List.singleton_inj.mp last
      refine .inr ⟨⟨past, c', since, rfl, gave, fun stamp mem ↦ ?_⟩, fun stamp ended ↦ ?_⟩
      · exact unended stamp (by simp [mem])
      · exact unended stamp (by simp [ended])
  · rintro (gave | ⟨⟨past, c', since, rfl, gave, unended⟩, other⟩)
    · exact ⟨calls, c, [], rfl, gave, by simp⟩
    · refine ⟨past, c', since ++ [c], by simp, gave, fun stamp mem ↦ ?_⟩
      rcases List.mem_append.mp mem with mem | mem
      · exact unended stamp mem
      · exact other stamp (List.mem_singleton.mp mem).symm

theorem Standing.mem_given (h : d.Standing calls l) : l ∈ d.given calls := by
  obtain ⟨past, c, since, rfl, gave, -⟩ := h
  exact List.mem_filterMap.mpr ⟨c, by simp, gave⟩

/-- Questions and tidying up give no logins and end none. -/
theorem silent_of_not_isWrite {c : Stamp × Call} (h : c.2.isWrite = false) :
    d.gives? c = none ∧ ∀ stamp token, c ≠ (stamp, .logout token) := by
  obtain ⟨stamp, c⟩ := c
  cases c with
  | login r => cases h
  | logout token => cases h
  | verify token => exact ⟨rfl, by simp⟩
  | purge => exact ⟨rfl, by simp⟩

/-- Neither questions nor tidying up matter for what stands. -/
theorem standing_filter (d : Desk) (calls : List (Stamp × Call)) (l : Login) :
    d.Standing (calls.filter (·.2.isWrite)) l ↔ d.Standing calls l := by
  induction calls using List.reverseRecOn with
  | nil => exact Iff.rfl
  | append_singleton calls c ih =>
    rw [List.filter_append, standing_concat]
    cases writes : c.2.isWrite with
    | true =>
      have whole : [c].filter (·.2.isWrite) = [c] := by simp [writes]
      rw [whole, standing_concat, ih]
    | false =>
      obtain ⟨gives, ends⟩ := silent_of_not_isWrite (d := d) writes
      simp [writes, gives, ends, ih]

theorem given_filter (d : Desk) (calls : List (Stamp × Call)) :
    d.given (calls.filter (·.2.isWrite)) = d.given calls := by
  rw [given, given, List.filterMap_filter]
  congr 1
  funext c
  obtain ⟨stamp, c⟩ := c
  cases c <;> rfl

/-! ## The table of a run -/

/-- Of the logins that are good at a time, a call up to then puts into the table what it gives and
takes out what it ends, and no others. -/
theorem mem_after (d : Desk) (c : Stamp × Call) (until_now : c.1.now ≤ now)
    (live : now < l.expiresAt)
    (fresh : l ∈ d.logins.rows → ∀ l', d.gives? c = some l' → l'.token ≠ l.token) :
    l ∈ (d.after c).logins.rows ↔
      d.gives? c = some l ∨ l ∈ d.logins.rows ∧ ∀ stamp, c ≠ (stamp, .logout l.token) := by
  obtain ⟨stamp, c⟩ := c
  have good : stamp.now < l.expiresAt := until_now.trans_lt live
  cases c with
  | login r =>
    simp only [after, gives?] at fresh ⊢
    rcases d.login_cases stamp r with ⟨f, h⟩ | ⟨l', -, -, -, h⟩
    · simp [h, Except.toOption]
    · rw [h] at fresh ⊢
      have other (hl : l ∈ d.logins.rows) : l.token ≠ l'.token := (fresh hl l' rfl).symm
      rw [Table.mem_put, and_iff_left_of_imp other]
      simp [Except.toOption, eq_comm]
  | verify token =>
    simp [after, gives?, mem_verify, good]
  | logout token =>
    simp [after, gives?, logout, Table.mem_erase, eq_comm]
  | purge => simp [after, gives?, mem_purge, good]

/-- Of the logins that are good at a time, the table holds after a run up to then exactly those that
stand. -/
theorem mem_run (nobody : d.logins = .empty _) (until_now : ∀ c ∈ calls, c.1.now ≤ now)
    (distinct : ((d.given calls).map (·.token)).Nodup) (live : now < l.expiresAt) :
    l ∈ (d.run calls).logins.rows ↔ d.Standing calls l := by
  induction calls using List.reverseRecOn with
  | nil => simp [run, nobody, Standing]
  | append_singleton calls c ih =>
    have tokens : (d.given (calls ++ [c])).map (·.token) =
        (d.given calls).map (·.token) ++ ((d.gives? c).map (·.token)).toList := by
      cases gave : d.gives? c <;> simp [given, gave]
    rw [tokens, List.nodup_append] at distinct
    have ih := ih (fun c' hc' ↦ until_now c' (List.mem_append_left _ hc')) distinct.1
    rw [run_concat, standing_concat, mem_after _ c (until_now c (by simp)) live, gives?_run, ih]
    -- What the call gives has another token than what stood before.
    intro hl l' gave same
    rw [gives?_run] at gave
    refine distinct.2.2 l.token ?_ l'.token (by simp [gave]) same.symm
    exact List.mem_map_of_mem (ih.mp hl).mem_given

/-! ## All runs -/

/-- A login of a run gave a token to a user, the given number of seconds from then are not over, and
the login has not been ended. -/
def Grants (d : Desk) (seconds : Int) (calls : List (Stamp × Call)) (now : Instant) (token : String)
    (u : User) : Prop :=
  ∃ past stamp r since l expiry, calls = past ++ (stamp, .login r) :: since ∧
    ((d.run past).login stamp r).1 = .ok l ∧ l.token = token ∧ l.user = u ∧
    stamp.now.addSeconds? seconds = some expiry ∧ now < expiry ∧
    ∀ stamp', (stamp', .logout token) ∉ since

theorem grants_iff {u : User} :
    d.Grants d.lifetime calls now token u ↔
      ∃ l, d.Standing calls l ∧ l.token = token ∧ now < l.expiresAt ∧ l.user = u := by
  constructor
  · rintro ⟨past, stamp, r, since, l, expiry, rfl, gave, rfl, rfl, ends, live, unended⟩
    have gave' := gave
    rw [(sameTerms_run d past).login_fst] at gave'
    rcases d.login_cases stamp r with ⟨f, h⟩ | ⟨l', -, -, ends', h⟩
    · rw [h] at gave'
      cases gave'
    · rw [h] at gave'
      cases gave'
      rw [ends] at ends'
      cases ends'
      have gives : d.gives? (stamp, .login r) = some l := by simp [gives?, h, Except.toOption]
      exact ⟨l, ⟨past, _, since, rfl, gives, unended⟩, rfl, live, rfl⟩
  · rintro ⟨l, ⟨past, ⟨stamp, c⟩, since, rfl, gave, unended⟩, rfl, live, rfl⟩
    cases c with
    | login r =>
      rcases d.login_cases stamp r with ⟨f, h⟩ | ⟨l', -, -, ends, h⟩
      · simp [gives?, h, Except.toOption] at gave
      · obtain rfl : l' = l := by simpa [gives?, h, Except.toOption] using gave
        refine ⟨past, stamp, r, since, l', _, rfl, ?_, rfl, rfl, ends, live, unended⟩
        rw [(sameTerms_run d past).login_fst, h]
    | _ => cases gave

/-- After a run up to a time, a token is accepted exactly if a login grants it. -/
theorem verify_run {u : User} (nobody : d.logins = .empty _)
    (until_now : ∀ c ∈ calls, c.1.now ≤ now)
    (distinct : ((d.given calls).map (·.token)).Nodup) :
    ((d.run calls).verify now token).1 = .ok u ↔ d.Grants d.lifetime calls now token u := by
  rw [verify_eq_ok_iff, grants_iff]
  refine exists_congr fun l ↦ ?_
  constructor
  · rintro ⟨hl, same, live, user⟩
    exact ⟨(mem_run nobody until_now distinct live).mp hl, same, live, user⟩
  · rintro ⟨standing, same, live, user⟩
    exact ⟨(mem_run nobody until_now distinct live).mpr standing, same, live, user⟩

/-- A login lasts the hours of the settings if they make sense, and a week if not. -/
theorem lifetime_ofSettings (settings : Settings.Auth) (adminId : Id) :
    (ofSettings settings adminId).lifetime =
      (if 1 ≤ settings.tokenHours ∧ settings.tokenHours ≤ 8760 then settings.tokenHours
        else 168) * 3600 := by
  by_cases sensible : 1 ≤ settings.tokenHours ∧ settings.tokenHours ≤ 8760
  · have seconds : settings.tokenSeconds? = some (settings.tokenHours * 3600) := if_pos sensible
    rw [if_pos sensible]
    simp [ofSettings, Settings.Auth.tokenSeconds, seconds]
  · have seconds : settings.tokenSeconds? = none := if_neg sensible
    rw [if_neg sensible]
    simp [ofSettings, Settings.Auth.tokenSeconds, seconds, Settings.usualTokenHours]

/-- In every run of calls by a clock that never goes back, in which the logins give different
tokens, each question about a token finds a user exactly if a login has given the token to this
user, has not lasted its hours yet and has not been ended; otherwise the asker is not authorized.
The answer is the same as if there had been no questions and no purges before. Each purge takes off
the table exactly the logins whose tokens would be refused. -/
theorem verify_exact (settings : Settings.Auth) (adminId : Id) (calls : List (Stamp × Call))
    (ticking : (calls.map (·.1.now)).Pairwise (· ≤ ·))
    (distinct : (((ofSettings settings adminId).given calls).map (·.token)).Nodup) :
    let d := ofSettings settings adminId
    let hours := if 1 ≤ settings.tokenHours ∧ settings.tokenHours ≤ 8760 then settings.tokenHours
      else 168
    (∀ past stamp token future, calls = past ++ (stamp, .verify token) :: future →
      (∀ u, ((d.run past).verify stamp.now token).1 = .ok u ↔
        d.Grants (hours * 3600) past stamp.now token u) ∧
      ((∀ u, ¬d.Grants (hours * 3600) past stamp.now token u) →
        ∃ f, ((d.run past).verify stamp.now token).1 = .error f ∧ f.kind? = some .unauthorized) ∧
      ((d.run (past.filter (·.2.isWrite))).verify stamp.now token).1 =
        ((d.run past).verify stamp.now token).1) ∧
    ∀ past stamp future, calls = past ++ (stamp, .purge) :: future → ∀ l,
      l ∈ ((d.run past).purge stamp.now).2.logins.rows ↔
        l ∈ (d.run past).logins.rows ∧ ∃ u, ((d.run past).verify stamp.now l.token).1 = .ok u := by
  intro d hours
  have lasts : d.lifetime = hours * 3600 := lifetime_ofSettings settings adminId
  refine ⟨?_, fun past stamp future _ l ↦ mem_purge_iff_verify⟩
  rintro past stamp token future rfl
  have until_now : ∀ c ∈ past, c.1.now ≤ stamp.now := by
    rw [List.map_append, List.pairwise_append] at ticking
    intro c hc
    exact ticking.2.2 _ (List.mem_map_of_mem hc) _ (by simp)
  have distinct : ((d.given past).map (·.token)).Nodup := by
    refine distinct.sublist (List.Sublist.map _ ?_)
    exact (List.sublist_append_left past _).filterMap _
  have accepted {u : User} : ((d.run past).verify stamp.now token).1 = .ok u ↔
      d.Grants (hours * 3600) past stamp.now token u := by
    rw [← lasts]
    exact verify_run rfl until_now distinct
  refine ⟨fun u ↦ accepted, fun refused ↦ ?_, ?_⟩
  · rcases (d.run past).verify_cases stamp.now token with ⟨u, h⟩ | h
    · exact absurd (accepted.mp h) (refused u)
    · exact ⟨_, h, rfl⟩
  · apply verify_fst_ext
    intro u
    rw [verify_run rfl (fun c hc ↦ until_now c (List.mem_filter.mp hc).1), grants_iff,
      accepted, ← lasts, grants_iff]
    · simp only [standing_filter]
    · rwa [given_filter]

/-- A time in seconds, and the token that a login would give then. -/
def visit (secs : Int) (token : String) : Stamp :=
  ⟨(Instant.ofParts? secs 0).getD .epoch, ⟨0⟩, ⟨0⟩, token⟩

/-- The administrator logs in, fails to, and logs in again; a purge takes away the first login in
the second in which its hour is over. -/
def morning : List (Stamp × Call) :=
  [(visit 0 "crm_1", .login ⟨" Admin@Xeno-CRM.com", "admin123"⟩),
    (visit 60 "crm_2", .login ⟨"admin@xeno-crm.com", "letmein"⟩),
    (visit 1800 "crm_3", .login ⟨"admin@xeno-crm.com", "admin123"⟩), (visit 3600 "", .purge)]

/-- When the first login of the morning has lasted its hour, it is over, and the second is not. -/
theorem verify_exact_morning :
    let d := ofSettings { Settings.Auth.usual with tokenHours := 1 } ⟨7⟩
    let calls := morning ++ [(visit 3600 "", .verify "crm_1"), (visit 3600 "", .verify "crm_3")]
    (calls.map (·.1.now)).Pairwise (· ≤ ·) ∧ ((d.given calls).map (·.token)).Nodup ∧
      (∀ u, ¬d.Grants (1 * 3600) morning (visit 3600 "").now "crm_1" u) ∧
      d.Grants (1 * 3600) (morning ++ [(visit 3600 "", .verify "crm_1")]) (visit 3600 "").now
        "crm_3" d.admin := by
  intro d calls
  have ticking : (calls.map (·.1.now)).Pairwise (· ≤ ·) := by decide +kernel
  have distinct : ((d.given calls).map (·.token)).Nodup := by decide +kernel
  obtain ⟨exact, -⟩ := verify_exact { Settings.Auth.usual with tokenHours := 1 } ⟨7⟩ calls ticking distinct
  refine ⟨ticking, distinct, fun u grants ↦ ?_, ?_⟩
  · have accepted := ((exact morning _ "crm_1" _ rfl).1 u).mpr grants
    have refused : ((d.run morning).verify (visit 3600 "").now "crm_1").1 = .error .badToken := by
      decide +kernel
    rw [refused] at accepted
    cases accepted
  · refine ((exact _ _ "crm_3" [] rfl).1 d.admin).mp ?_
    decide +kernel

end Desk

end Outreach
