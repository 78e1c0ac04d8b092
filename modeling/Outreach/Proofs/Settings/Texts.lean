import Outreach.Proofs.Crm.Run
import Outreach.Proofs.Decimal.Characters
import Outreach.Proofs.Login.Tokens
import Outreach.Proofs.Text.Lowercase
import Outreach.Settings.Environment

/-!
# Texts among the settings

The text of a variable is taken for what it looks like before it is turned back into a text, so that
a setting that is a text need not become what the variable says. It does if the text is how its truth
value or its number is written, or looks like neither. Otherwise the setting is another text; with a
password of this kind nobody logs in.
-/

namespace Outreach.Settings

open Decimal Text

variable {s : String}

/-! ## What texts look like -/

/-- The text is a word for a truth value, in letters of either case. -/
def IsWord (s : String) : Prop := lower s = "true" ∨ lower s = "false"

/-- The text is read as an integer of 64 bits. -/
def IsWhole (s : String) : Prop :=
  ∃ n, int? s.toList = some n ∧ Entry.minWhole ≤ n ∧ n ≤ Entry.maxWhole

/-- What a text becomes: it is turned back from what it looks like. -/
def shown (s : String) : String := ((Entry.ofText s).toText?).getD s

theorem toText?_ofText (s : String) : (Entry.ofText s).toText? = some (shown s) := by
  have isSome : (Entry.ofText s).toText?.isSome = true := by
    unfold Entry.ofText
    split
    · rfl
    · rfl
    · split
      · split <;> rfl
      · split <;> rfl
  obtain ⟨text, known⟩ := Option.isSome_iff_exists.mp isSome
  rw [shown, known, Option.getD_some]

theorem ofText_of_true (h : lower s = "true") : Entry.ofText s = .flag true := by
  simp only [Entry.ofText, h]

theorem ofText_of_false (h : lower s = "false") : Entry.ofText s = .flag false := by
  simp only [Entry.ofText, h]

/-- What is no word for a truth value is read as a number, if it can be. -/
theorem ofText_of_not_isWord (noWord : ¬IsWord s) :
    Entry.ofText s = match int? s.toList, float? s.toList with
      | some n, x => if Entry.minWhole ≤ n ∧ n ≤ Entry.maxWhole then .whole n else .real (x.getD 0.0)
      | none, some x => .real x
      | none, none => .text s := by
  unfold Entry.ofText
  split
  · next yes => exact absurd (.inl yes) noWord
  · next no => exact absurd (.inr no) noWord
  · cases int? s.toList with
    | some n => rfl
    | none => cases float? s.toList <;> rfl

theorem ofText_of_whole {n : Int} (noWord : ¬IsWord s) (read : int? s.toList = some n)
    (least : Entry.minWhole ≤ n) (most : n ≤ Entry.maxWhole) : Entry.ofText s = .whole n := by
  simp only [ofText_of_not_isWord noWord, read, if_pos (And.intro least most)]

theorem ofText_of_real {x : Float} (noWord : ¬IsWord s) (noWhole : ¬IsWhole s)
    (read : float? s.toList = some x) : Entry.ofText s = .real x := by
  cases whole : int? s.toList with
  | some n =>
    have outside := fun within ↦ noWhole ⟨n, whole, within⟩
    simp only [ofText_of_not_isWord noWord, whole, read, if_neg outside, Option.getD_some]
  | none => simp only [ofText_of_not_isWord noWord, whole, read]

theorem ofText_of_other (noWord : ¬IsWord s) (noNumber : float? s.toList = none) :
    Entry.ofText s = .text s := by
  have noInteger : int? s.toList = none := by
    refine Option.eq_none_iff_forall_ne_some.mpr fun n read ↦ ?_
    obtain ⟨x, real⟩ := exists_float?_of_int? read
    rw [noNumber] at real
    cases real
  simp only [ofText_of_not_isWord noWord, noInteger, noNumber]

/-! ## Texts that stay -/

/-- The texts that stay as they are: the words for truth values in small letters, integers of 64 bits
and other numbers as they are written, and all that looks like neither. -/
inductive Stays : String → Prop where
  | yes : Stays "true"
  | no : Stays "false"
  /-- An integer of 64 bits as it is written. -/
  | whole (n : Int) (least : Entry.minWhole ≤ n) (most : n ≤ Entry.maxWhole) : Stays (toString n)
  | real {s : String} (x : Float) (noWord : ¬IsWord s) (noWhole : ¬IsWhole s)
      (read : float? s.toList = some x) (written : display x = s) : Stays s
  | other {s : String} (noWord : ¬IsWord s) (noNumber : float? s.toList = none) : Stays s

/-- A character in front of the letters is its own small form. -/
theorem isSmall_of_lt {c : Char} (h : c.toNat < 65) : IsSmall c := by
  refine ⟨?_, ?_⟩
  · rintro rfl
    exact absurd h (by decide)
  · unfold caseRuns findRun
    exact if_pos h

theorem mem_lowerFrom {c : Char} {cs : List Char} (small : IsSmall c) (before : List Char)
    (h : c ∈ cs) : c ∈ lowerFrom before cs := by
  induction cs generalizing before with
  | nil => cases h
  | cons d ds ih =>
    rw [lowerFrom, List.mem_append]
    rcases List.mem_cons.mp h with rfl | there
    · rw [if_neg small.ne_sigma, small.lowerChar_eq]
      exact .inl List.mem_cons_self
    · exact .inr (ih _ there)

theorem lt_of_isDigit {c : Char} (h : isDigit c = true) : c.toNat < 65 := by
  simp only [isDigit, Bool.and_eq_true, decide_eq_true_eq, Char.le_def,
    UInt32.le_iff_toNat_le] at h
  exact Nat.lt_of_le_of_lt h.2 (by decide)

/-- The words for truth values have nothing but letters. -/
theorem not_isWord_of_mem {c : Char} (h : c ∈ s.toList) (low : c.toNat < 65) : ¬IsWord s := by
  have small : c ∈ (lower s).toList := by
    rw [toList_lower]
    exact mem_lowerFrom (isSmall_of_lt low) [] h
  have absent {word : String} (letters : ∀ d ∈ word.toList, 65 ≤ d.toNat) : lower s ≠ word := by
    rintro rfl
    exact absurd (letters c small) (Nat.not_le.mpr low)
  rintro (yes | no)
  · exact absent (by simp) yes
  · exact absent (by simp) no

theorem shown_toString {n : Int} (least : Entry.minWhole ≤ n) (most : n ≤ Entry.maxWhole) :
    shown (toString n) = toString n := by
  have read : int? (toString n).toList = some n := by rw [← decimalInt_eq, int?_decimalInt]
  have noWord : ¬IsWord (toString n) := by
    obtain ⟨c, hc, digit⟩ := exists_digit_mem_decimalInt n
    exact not_isWord_of_mem (decimalInt_eq n ▸ hc) (lt_of_isDigit digit)
  rw [shown, ofText_of_whole noWord read least most, Entry.toText?, Option.getD_some, decimalInt_eq,
    String.ofList_toList]

/-- A text becomes itself exactly if it is one of those that stay. -/
theorem shown_eq_self_iff : shown s = s ↔ Stays s := by
  constructor
  · intro same
    by_cases yes : lower s = "true"
    · rw [shown, ofText_of_true yes] at same
      exact same ▸ .yes
    by_cases no : lower s = "false"
    · rw [shown, ofText_of_false no] at same
      exact same ▸ .no
    have noWord : ¬IsWord s := not_or.mpr ⟨yes, no⟩
    by_cases whole : IsWhole s
    · obtain ⟨n, read, least, most⟩ := whole
      rw [shown, ofText_of_whole noWord read least most, Entry.toText?, Option.getD_some,
        decimalInt_eq, String.ofList_toList] at same
      exact same ▸ .whole n least most
    cases read : float? s.toList with
    | none => exact .other noWord read
    | some x =>
      rw [shown, ofText_of_real noWord whole read] at same
      exact .real x noWord whole read same
  · intro stays
    cases stays with
    | yes => decide +kernel
    | no => decide +kernel
    | whole n least most => exact shown_toString least most
    | real x noWord noWhole read written =>
      rw [shown, ofText_of_real noWord noWhole read]
      exact written
    | other noWord noNumber =>
      rw [shown, ofText_of_other noWord noNumber]
      rfl

/-- A text with a mark that no number is written with stays. -/
theorem stays_of_foreign {c : Char} (h : c ∈ s.toList) (foreign : IsForeign c) : Stays s := by
  refine .other (not_isWord_of_mem h foreign.1) ?_
  refine Option.eq_none_iff_forall_ne_some.mpr fun x read ↦ ?_
  exact not_isForeign_of_float? read c h foreign

/-! ## Settings that are texts -/

section OrUsual

variable {α : Type} {name other : String} {e : Entry} {usual : α} {read : Entry → Option α}

theorem orUsual_here : orUsual [(name, e)] name usual read = read e := by
  simp only [orUsual, List.lookup, beq_self_eq_true]

theorem orUsual_elsewhere (h : name ≠ other) :
    orUsual [(other, e)] name usual read = some usual := by
  simp only [orUsual, List.lookup, beq_eq_false_iff_ne.mpr h]

end OrUsual

/-- A setting that is a text. -/
inductive TextSetting where
  | nodeId
  | host
  | frontendOrigin
  | adminName
  | adminEmail
  | adminPassword

namespace TextSetting

def key : TextSetting → String
  | nodeId => "CRM__NODE_ID"
  | host => "CRM__API__HOST"
  | frontendOrigin => "CRM__API__FRONTEND_ORIGIN"
  | adminName => "CRM__AUTH__ADMIN_NAME"
  | adminEmail => "CRM__AUTH__ADMIN_EMAIL"
  | adminPassword => "CRM__AUTH__ADMIN_PASSWORD"

/-- The usual settings but for this one. -/
def usualBut : TextSetting → String → Settings
  | nodeId, text => { usual with nodeId := text }
  | host, text => { usual with api := { Api.usual with host := text } }
  | frontendOrigin, text => { usual with api := { Api.usual with frontendOrigin := text } }
  | adminName, text => { usual with auth := { Auth.usual with adminName := text } }
  | adminEmail, text => { usual with auth := { Auth.usual with adminEmail := text } }
  | adminPassword, text => { usual with auth := { Auth.usual with adminPassword := text } }

def text : TextSetting → Settings → String
  | nodeId, s => s.nodeId
  | host, s => s.api.host
  | frontendOrigin, s => s.api.frontendOrigin
  | adminName, s => s.auth.adminName
  | adminEmail, s => s.auth.adminEmail
  | adminPassword, s => s.auth.adminPassword

/-- The path of names that the variable leads along. -/
def path : TextSetting → List String
  | nodeId => ["node_id"]
  | host => ["api", "host"]
  | frontendOrigin => ["api", "frontend_origin"]
  | adminName => ["auth", "admin_name"]
  | adminEmail => ["auth", "admin_email"]
  | adminPassword => ["auth", "admin_password"]

variable (setting : TextSetting)

theorem path?_key : path? setting.key = some setting.path := by
  cases setting <;> decide +kernel

/-- A single entry changes a single setting. -/
theorem ofEntries?_putAt {e : Entry} {text : String} (h : e.toText? = some text) :
    ofEntries? (e.putAt setting.path []) = some (setting.usualBut text) := by
  cases setting <;>
    simp (disch := decide) only [path, usualBut, Entry.putAt, Entry.put, List.filter_nil,
      List.lookup_nil, Option.map_none, Option.getD_none, ofEntries?, Api.ofEntry?, Auth.ofEntry?,
      Entry.toSection?, orUsual_here, orUsual_elsewhere, h, bind, Option.bind, pure, usual,
      Api.usual, Auth.usual]

theorem check_usualBut (text : String) : (setting.usualBut text).check = .ok () := by
  cases setting <;> rfl

/-- The variable alone is loaded as what it is shown as. -/
theorem ofEnvironment_key (s : String) :
    ofEnvironment [(setting.key, s)] = .ok (setting.usualBut (shown s)) := by
  have entries : entriesOf [(setting.key, s)] = (Entry.ofText s).putAt setting.path [] := by
    simp only [entriesOf, List.foldl, path?_key]
  have settings := setting.ofEntries?_putAt (toText?_ofText s)
  simp only [ofEnvironment, entries, settings, check_usualBut]
  rfl

theorem text_usualBut : Function.LeftInverse setting.text setting.usualBut := by
  intro text
  cases setting <;> rfl

end TextSetting

/-! ## Logging in -/

/-- Under the usual settings but for a password, whoever gives this password logs in, and nobody who
gives another. -/
theorem login_usualBut (text : String) (adminId : Id) (stamp : Stamp) (given : String)
    (runs : (stamp.now.addSeconds? 604800).isSome = true) :
    let auth := (TextSetting.adminPassword.usualBut text).auth
    let asked := (Desk.ofSettings auth adminId).login stamp ⟨auth.adminEmail, given⟩
    (given = text → ∃ l, asked.1 = .ok l) ∧ (given ≠ text → asked.1 = .error .badCredentials) := by
  intro auth asked
  obtain ⟨expiresAt, ends⟩ := Option.isSome_iff_exists.mp runs
  have lasts : (Desk.ofSettings auth adminId).lifetime = 604800 :=
    Desk.lifetime_ofSettings auth adminId
  constructor
  · rintro rfl
    have accepted : asked = (Desk.ofSettings auth adminId).login stamp
        ⟨auth.adminEmail, auth.adminPassword⟩ := rfl
    rw [accepted, Desk.login, if_pos ⟨rfl, rfl⟩, lasts, ends]
    exact ⟨_, rfl⟩
  · intro other
    have refused : ¬(Login.normalized auth.adminEmail = (Desk.ofSettings auth adminId).admin.email ∧
        given = (Desk.ofSettings auth adminId).password) := fun same ↦ other same.2
    show ((Desk.ofSettings auth adminId).login stamp ⟨auth.adminEmail, given⟩).1 = _
    rw [Desk.login, if_neg refused]

/-- Whatever the text of the variable of one setting that is a text, the settings are loaded, and all
others are the usual ones. This one is the text exactly if the text is among those that stay, such as
every text with a mark that no number is written with; and exactly then a password given as such a
text is one with which the administrator logs in. -/
theorem texts_loaded (s : String) :
    (∀ setting : TextSetting,
      ofEnvironment [(setting.key, s)] = .ok (setting.usualBut (shown s))) ∧
    (∀ setting : TextSetting,
      ofEnvironment [(setting.key, s)] = .ok (setting.usualBut s) ↔ Stays s) ∧
    ((∃ c ∈ s.toList, IsForeign c) → Stays s) ∧
    ∀ adminId stamp settings, ofEnvironment [("CRM__AUTH__ADMIN_PASSWORD", s)] = .ok settings →
      (stamp.now.addSeconds? 604800).isSome = true →
      let asked := (Desk.ofSettings settings.auth adminId).login stamp ⟨settings.auth.adminEmail, s⟩
      (Stays s → ∃ l, asked.1 = .ok l) ∧ (¬Stays s → asked.1 = .error .badCredentials) := by
  refine ⟨fun setting ↦ setting.ofEnvironment_key s, fun setting ↦ ?_, ?_, ?_⟩
  · rw [setting.ofEnvironment_key s, Except.ok.injEq, setting.text_usualBut.injective.eq_iff,
      shown_eq_self_iff]
  · rintro ⟨c, hc, foreign⟩
    exact stays_of_foreign hc foreign
  · intro adminId stamp settings loaded runs
    have own := TextSetting.adminPassword.ofEnvironment_key s
    rw [show TextSetting.adminPassword.key = "CRM__AUTH__ADMIN_PASSWORD" from rfl, loaded] at own
    cases own
    obtain ⟨same, other⟩ := login_usualBut (shown s) adminId stamp s runs
    exact ⟨fun stays ↦ same (shown_eq_self_iff.mpr stays).symm,
      fun changes ↦ other fun eq ↦ changes (shown_eq_self_iff.mp eq.symm)⟩

/-- A password with an at sign in it stays and opens. -/
theorem texts_loaded_marked : Stays "s3cret@home" ∧
    ∃ settings, ofEnvironment [("CRM__AUTH__ADMIN_PASSWORD", "s3cret@home")] = .ok settings ∧
      settings.auth.adminPassword = "s3cret@home" ∧
      ((Crm.tick 1).now.addSeconds? 604800).isSome = true ∧
      ∃ l, ((Desk.ofSettings settings.auth ⟨0⟩).login (Crm.tick 1)
        ⟨settings.auth.adminEmail, "s3cret@home"⟩).1 = .ok l := by
  obtain ⟨-, exact_iff, marked, opens⟩ := texts_loaded "s3cret@home"
  have stays : Stays "s3cret@home" := marked ⟨'@', by decide, by decide⟩
  have loaded := (exact_iff .adminPassword).mpr stays
  have runs : ((Crm.tick 1).now.addSeconds? 604800).isSome = true := by decide
  exact ⟨stays, _, loaded, rfl, runs, (opens ⟨0⟩ (Crm.tick 1) _ loaded runs).1 stays⟩

/-- A password loses the zeros in front: it opens nothing, while the number that it is read as does. -/
theorem zeros_of_password_lost :
    let auth := { Auth.usual with adminPassword := "7" }
    ofEnvironment [("CRM__AUTH__ADMIN_PASSWORD", "007")] = .ok { usual with auth } ∧
      let desk := Desk.ofSettings auth ⟨0⟩
      (desk.login (Crm.tick 1) ⟨"admin@xeno-crm.com", "007"⟩).1 = .error .badCredentials ∧
      ∃ l, (desk.login (Crm.tick 1) ⟨"admin@xeno-crm.com", "7"⟩).1 = .ok l := by
  have number : shown "007" = "7" := by decide +kernel
  have loaded := TextSetting.adminPassword.ofEnvironment_key "007"
  rw [number] at loaded
  have runs : ((Crm.tick 1).now.addSeconds? 604800).isSome = true := by decide
  intro auth
  exact ⟨loaded, (login_usualBut "7" ⟨0⟩ (Crm.tick 1) "007" runs).2 (by decide),
    (login_usualBut "7" ⟨0⟩ (Crm.tick 1) "7" runs).1 rfl⟩

end Outreach.Settings
