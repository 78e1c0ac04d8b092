import Outreach.Http.Service
import Outreach.Proofs.Calendar.Order
import Outreach.Proofs.Login.Tokens
import Outreach.Proofs.Table

/-!
# Strangers

A stranger is somebody who does not present the token of a login that is still good. Strangers are
refused by every resource that is for users. The refusal depends on nothing but the header that they
sent, and leaves everything as it is but for an expired login, which may be forgotten.

Who logs out is a stranger from then on, until a login gives the same token.
-/

namespace Outreach

open Calendar Http

/-- What is behind a front that has been taken off. -/
theorem Text.dropPrefix?_eq_some_iff {front cs rest : List Char} :
    dropPrefix? front cs = some rest ↔ cs = front ++ rest := by
  induction front generalizing cs with
  | nil => simp [dropPrefix?]
  | cons p front ih =>
    cases cs with
    | nil => simp [dropPrefix?]
    | cons c cs =>
      by_cases same : p = c
      · simp [dropPrefix?, same, ih]
      · simp [dropPrefix?, same, Ne.symm same]

namespace Http

/-- A header presents a token: it is there, all its characters are visible, and the token stands
behind the word for the scheme, with or without white space around it. -/
def Presents (header : Option String) (token : String) : Prop :=
  ∃ text rest, header = some text ∧
    (∀ c ∈ text.toList, c = '\t' ∨ 0x20 ≤ c.toNat ∧ c.toNat < 0x7F) ∧
    text = "Bearer " ++ rest ∧ token = Text.trim rest

/-- The request is for a resource of users, by any method, also by one that the resource does not
know. Questions about what may be asked do not count. -/
def Request.IsGuarded (r : Request) : Prop :=
  r.method ≠ .options ∧ ∃ route, Route.ofTarget? r.target = some route ∧
    route ≠ .login ∧ route ≠ .health ∧ route ≠ .ready ∧ route ≠ .live

theorem Request.IsGuarded.exists_route {r : Request} (h : r.IsGuarded) :
    ∃ route, Route.ofTarget? r.target = some route ∧ route.isOpen = false := by
  obtain ⟨-, route, named, login, health, ready, live⟩ := h
  refine ⟨route, named, ?_⟩
  cases route <;> first | rfl | contradiction

def Method.sent (m : Method) (reply : Reply) : Reply :=
  if m = .head then reply.withoutBody else reply

/-- A reply that says what sort of fault there is and what is wrong. -/
def Reply.saying (status : Nat) (code message : String) : Reply :=
  ⟨status, .json (.object [("error", .text code), ("message", .text message)])⟩

theorem Method.sent_of_ne {m : Method} (h : m ≠ .head) : m.sent = id := by
  funext reply
  rw [sent, if_neg h, id]

@[simp] theorem Method.status_sent (m : Method) (reply : Reply) :
    (m.sent reply).status = reply.status := by
  unfold sent
  split <;> rfl

end Http

namespace Service

variable {w w' : Service} {now : Instant} {header : Option String} {token : String}
  {stamp : Stamp} {r : Request} {route : Route} {l : Login}

/-! ## Presented tokens -/

theorem isVisible_iff {c : Char} :
    isVisible c = true ↔ c = '\t' ∨ 0x20 ≤ c.toNat ∧ c.toNat < 0x7F := by
  simp [isVisible]

theorem token?_some (text : String) :
    token? (some text) =
      if text.toList.all isVisible = true then
        (Text.dropPrefix? ['B', 'e', 'a', 'r', 'e', 'r', ' '] text.toList).map fun rest ↦
          String.ofList (Text.trimChars rest)
      else none := by
  unfold token? guard
  by_cases visible : text.toList.all isVisible = true
  · rw [if_pos visible]
    show (if _ then _ else _ : Option Unit).bind _ = _
    rw [if_pos visible]
    exact Option.map_eq_bind.symm
  · rw [if_neg visible]
    show (if _ then _ else _ : Option Unit).bind _ = _
    rw [if_neg visible]
    rfl

theorem token?_eq_some_iff : token? header = some token ↔ Presents header token := by
  unfold Presents
  cases header with
  | none => exact iff_of_false (Option.some_ne_none token).symm (by simp)
  | some text =>
    have bearer (rest : String) : text = "Bearer " ++ rest ↔
        text.toList = ['B', 'e', 'a', 'r', 'e', 'r', ' '] ++ rest.toList := by
      rw [← String.toList_inj, String.toList_append]
      rfl
    simp only [token?_some, Option.ite_none_right_eq_some, List.all_eq_true, isVisible_iff,
      Option.map_eq_some_iff, Text.dropPrefix?_eq_some_iff]
    constructor
    · rintro ⟨visible, rest, front, rfl⟩
      refine ⟨text, String.ofList rest, rfl, visible, ?_, ?_⟩
      · rw [bearer, front, String.toList_ofList]
      · rw [Text.trim, String.toList_ofList]
    · rintro ⟨_, rest, ⟨⟩, visible, front, rfl⟩
      exact ⟨visible, rest.toList, (bearer rest).mp front, rfl⟩

theorem token?_eq_none_iff : token? header = none ↔ ∀ token, ¬Presents header token := by
  simp only [Option.eq_none_iff_forall_ne_some, ← token?_eq_some_iff, ne_eq]

theorem Presents.unique {token' : String} (h : Presents header token)
    (h' : Presents header token') : token = token' := by
  rw [← token?_eq_some_iff] at h h'
  exact Option.some.inj (h.symm.trans h')

theorem authenticate_of_token? (h : token? header = some token) :
    w.authenticate now header = ((w.desk.verify now token).1.mapError fun _ ↦ tokenBad,
      { w with desk := (w.desk.verify now token).2 }) := by
  simp only [authenticate, h]
  generalize w.desk.verify now token = o
  obtain ⟨answer, desk⟩ := o
  cases answer <;> rfl

theorem authenticate_of_not_token? (h : token? header = none) :
    w.authenticate now header = (.error tokenMissing, w) := by
  simp only [authenticate, h]

/-! ## Strangers -/

/-- No token is presented whose login is still good. -/
def Stranger (w : Service) (now : Instant) (header : Option String) : Prop :=
  ∀ token, Presents header token → ∀ l ∈ w.desk.logins.rows, l.token = token → l.expiresAt ≤ now

/-- Nothing has changed, except that an expired login may have been forgotten whose token was
presented. -/
def OnlyForgets (w w' : Service) (now : Instant) (header : Option String) : Prop :=
  w' = w ∨ ∃ l ∈ w.desk.logins.rows, Presents header l.token ∧ l.expiresAt ≤ now ∧
    w' = { w with desk := { w.desk with logins := w.desk.logins.erase l.token } }

theorem OnlyForgets.crm_eq (h : w.OnlyForgets w' now header) : w'.crm = w.crm := by
  obtain rfl | ⟨l, -, -, -, rfl⟩ := h <;> rfl

def refusal (header : Option String) : Reply :=
  if (token? header).isSome then tokenBad else tokenMissing

theorem refusal_of_presents (h : Presents header token) : refusal header = tokenBad := by
  rw [refusal, token?_eq_some_iff.mpr h]
  rfl

theorem refusal_of_not_presents (h : ∀ token, ¬Presents header token) :
    refusal header = tokenMissing := by
  rw [refusal, token?_eq_none_iff.mpr h]
  rfl

@[simp] theorem status_refusal (header : Option String) : (refusal header).status = 401 := by
  unfold refusal
  split <;> rfl

theorem authenticate_stranger (stranger : w.Stranger now header) :
    ∃ w', w.authenticate now header = (.error (refusal header), w') ∧
      w.OnlyForgets w' now header := by
  cases presented : token? header with
  | none =>
    refine ⟨w, ?_, .inl rfl⟩
    rw [authenticate_of_not_token? presented, refusal, presented]
    rfl
  | some token =>
    have presents := token?_eq_some_iff.mp presented
    obtain ⟨d', refused, changes⟩ := Desk.verify_refused (stranger token presents)
    refine ⟨{ w with desk := d' }, ?_, ?_⟩
    · rw [authenticate_of_token? presented, refused, refusal, presented]
      rfl
    · obtain rfl | ⟨l, hl, rfl, expired, rfl⟩ := changes
      · exact .inl rfl
      · exact .inr ⟨l, hl, presents, expired, rfl⟩

/-! ## Requests -/

/-- The method by which an answer is looked for. -/
def sought (m : Method) : Method := if m = .head then .get else m

/-- A request for a resource is answered by its method; of the answer to a request for headers alone
the body is left out. -/
theorem answer_eq (asked : r.method ≠ .options) (named : Route.ofTarget? r.target = some route) :
    w.answer stamp r = ((w.answerAt stamp r (sought r.method) route).1.map r.method.sent,
      (w.answerAt stamp r (sought r.method) route).2) := by
  unfold answer
  cases method : r.method with
  | options => exact absurd method asked
  | head =>
    simp only [named, sought, if_true]
    rfl
  | _ => simp [named, sought, Method.sent_of_ne]

/-- A stranger is refused, whatever else is in the request. -/
theorem answer_stranger (guarded : r.IsGuarded) (stranger : w.Stranger stamp.now r.authorization) :
    (w.answer stamp r).1 = some (r.method.sent (refusal r.authorization)) ∧
      w.OnlyForgets (w.answer stamp r).2 stamp.now r.authorization := by
  obtain ⟨route, named, users⟩ := guarded.exists_route
  obtain ⟨w', refused, forgets⟩ := authenticate_stranger stranger
  have at' : w.answerAt stamp r (sought r.method) route = w'.replies (refusal r.authorization) := by
    simp [answerAt, users, refused]
  rw [answer_eq guarded.1 named, at']
  exact ⟨rfl, forgets⟩

/-! ## The desk while requests are answered -/

section Desk

variable {α : Type} {go : α → Answer}

theorem desk_withId {go : Id → Answer} (part : String)
    (h : ∀ id, (go id).2.desk = w.desk) : (w.withId part go).2.desk = w.desk := by
  unfold withId
  split
  · exact h _
  · rfl

theorem desk_withBody (read : Json → Option α) (r : Request) (h : ∀ a, (go a).2.desk = w.desk) :
    (w.withBody read r go).2.desk = w.desk := by
  unfold withBody
  split
  · exact h _
  · rfl

theorem desk_withQuery (q : Option α) (h : ∀ a, (go a).2.desk = w.desk) :
    (w.withQuery q go).2.desk = w.desk := by
  unfold withQuery
  split
  · exact h _
  · rfl

end Desk

/-- Only who logs out changes anything at the desk. -/
theorem desk_answerUser (user : User) (m : Method) (h : route ≠ .logout) :
    (w.answerUser stamp user r m route).2.desk = w.desk := by
  cases route with
  | logout => exact absurd rfl h
  | customers | orders | campaigns =>
    simp only [answerUser]
    split
    · exact desk_withQuery _ fun _ ↦ rfl
    · exact desk_withBody _ _ fun _ ↦ rfl
  | customer part | campaign part =>
    refine desk_withId _ fun id ↦ ?_
    split
    · rfl
    · split
      · exact desk_withBody _ _ fun _ ↦ rfl
      · rfl
  | order part =>
    refine desk_withId _ fun id ↦ ?_
    split <;> rfl
  | orderStatus part => exact desk_withId _ fun _ ↦ desk_withBody _ _ fun _ ↦ rfl
  | campaignStart part | campaignPause part => exact desk_withId _ fun _ ↦ rfl
  | audiencePreview | segmentInsights => exact desk_withBody _ _ fun _ ↦ rfl
  | _ => rfl

/-- Logging out takes the login of the token that is presented off the table. -/
theorem desk_answerUser_logout (user : User) (m : Method)
    (presented : Presents r.authorization token) :
    (w.answerUser stamp user r m .logout).2.desk =
      { w.desk with logins := w.desk.logins.erase token } := by
  simp only [answerUser, token?_eq_some_iff.mpr presented]
  rfl

/-- The logins after an answer to a user were there before it. -/
theorem mem_answerUser (user : User) (m : Method)
    (h : l ∈ (w.answerUser stamp user r m route).2.desk.logins.rows) : l ∈ w.desk.logins.rows := by
  by_cases out : route = .logout
  · subst out
    cases presented : token? r.authorization with
    | none =>
      simp only [answerUser, presented] at h
      exact h
    | some token =>
      rw [desk_answerUser_logout _ _ (token?_eq_some_iff.mp presented)] at h
      exact (Table.mem_erase.mp h).1
  · rwa [desk_answerUser user m out] at h

/-- Nobody gets a login by being asked who they are. -/
theorem mem_authenticate (h : l ∈ (w.authenticate now header).2.desk.logins.rows) :
    l ∈ w.desk.logins.rows := by
  cases presented : token? header with
  | none =>
    rw [authenticate_of_not_token? presented] at h
    exact h
  | some token =>
    rw [authenticate_of_token? presented] at h
    exact (Desk.mem_verify.mp h).1

/-- The logins after a login has been asked for were there before, but for the one that is the
answer. -/
theorem mem_logIn {a : Login.Request} (h : l ∈ (w.logIn stamp a).2.desk.logins.rows) :
    l ∈ w.desk.logins.rows ∨ (w.logIn stamp a).1 = some (.ok l.toJson) := by
  unfold logIn at h ⊢
  rcases w.desk.login_cases stamp a with ⟨f, refused⟩ | ⟨l', -, -, -, given⟩
  · rw [refused] at h
    exact .inl h
  · rw [given] at h ⊢
    rcases Table.mem_put.mp h with rfl | ⟨hl, -⟩
    · exact .inr rfl
    · exact .inl hl

/-- The logins after an answer were there before it, but for one that was asked for and is the
answer. -/
theorem mem_answerAt {m : Method} (h : l ∈ (w.answerAt stamp r m route).2.desk.logins.rows) :
    l ∈ w.desk.logins.rows ∨
      route = .login ∧ m = .post ∧ (w.answerAt stamp r m route).1 = some (.ok l.toJson) := by
  cases opened : route.isOpen with
  | true =>
    by_cases known : route.methods.contains m = true
    · simp only [answerAt, opened, known, if_true] at h ⊢
      cases route with
      | login =>
        have post : m = .post := by simpa [Route.methods] using known
        simp only [answerOpen, withBody] at h ⊢
        cases read : body? Login.Request.ofJson? r with
        | none =>
          rw [read] at h
          exact .inl h
        | some a =>
          simp only [read] at h
          exact (mem_logIn h).imp_right fun answer ↦ ⟨trivial, post, answer⟩
      | health | ready | live => exact .inl h
      | _ => cases opened
    · simp only [answerAt, opened, known] at h
      exact .inl h
  | false =>
    left
    suffices here : l ∈ (w.authenticate stamp.now r.authorization).2.desk.logins.rows from
      mem_authenticate here
    simp only [answerAt, opened] at h
    generalize w.authenticate stamp.now r.authorization = o at h ⊢
    obtain ⟨answer, w₁⟩ := o
    cases answer with
    | error reply => exact h
    | ok user =>
      by_cases known : route.methods.contains m = true
      · simp only [known, if_true] at h
        exact mem_answerUser user m h
      · simp only [known] at h
        exact h

/-- A request that logs somebody in with a token. -/
def LogsIn (w : Service) (stamp : Stamp) (r : Request) (token : String) : Prop :=
  r.method = .post ∧ Route.ofTarget? r.target = some .login ∧
    ∃ l : Login, l.token = token ∧ (w.answer stamp r).1 = some (.ok l.toJson)

/-- The logins after a request were there before it, but for one that it gives. -/
theorem mem_answer (h : l ∈ (w.answer stamp r).2.desk.logins.rows) :
    l ∈ w.desk.logins.rows ∨ w.LogsIn stamp r l.token := by
  by_cases asked : r.method = .options
  · have same : (w.answer stamp r).2 = w := by simp [answer, asked]
    rw [same] at h
    exact .inl h
  cases named : Route.ofTarget? r.target with
  | none =>
    have same : (w.answer stamp r).2 = w := by
      unfold answer
      split <;> simp [named]
    rw [same] at h
    exact .inl h
  | some route =>
    rw [answer_eq asked named] at h
    rcases mem_answerAt h with hl | ⟨rfl, posted, answer⟩
    · exact .inl hl
    · have post : r.method = .post := by
        unfold sought at posted
        split at posted
        · cases posted
        · exact posted
      refine .inr ⟨post, named, l, rfl, ?_⟩
      rw [answer_eq asked named, answer, post]
      rfl

/-! ## After a logout -/

def Unknown (w : Service) (token : String) : Prop := ∀ l ∈ w.desk.logins.rows, l.token ≠ token

theorem Unknown.stranger (h : w.Unknown token) (presents : Presents header token) :
    w.Stranger now header := by
  intro token' presents' l hl same
  rw [Presents.unique presents' presents] at same
  exact absurd same (h l hl)

/-- Who logs out takes the token along that was presented, whether it was accepted or not. -/
theorem unknown_logOut (posted : r.method = .post) (named : Route.ofTarget? r.target = some .logout)
    (presents : Presents r.authorization token) : (w.answer stamp r).2.Unknown token := by
  have asked : r.method ≠ .options := by simp [posted]
  rw [answer_eq asked named, posted]
  show (w.answerAt stamp r .post .logout).2.Unknown token
  have presented := token?_eq_some_iff.mpr presents
  intro l hl
  have guarded : Route.logout.isOpen = false := rfl
  have known : Route.logout.methods.contains .post = true := rfl
  simp only [answerAt, guarded, known, authenticate_of_token? presented, Bool.false_eq_true,
    if_false, if_true] at hl
  rcases w.desk.verify_cases stamp.now token with ⟨user, accepted⟩ | refused
  · simp only [accepted, Except.mapError, desk_answerUser_logout _ _ presents] at hl
    exact (Table.mem_erase.mp hl).2
  · -- A login with the token has expired, and was forgotten when it was met.
    simp only [refused, Except.mapError] at hl
    intro same
    obtain ⟨hl, live⟩ := Desk.mem_verify.mp hl
    have accepted := Desk.verify_eq_ok_iff.mpr ⟨l, hl, same, live same, rfl⟩
    rw [refused] at accepted
    cases accepted

/-- What happens to a service. -/
inductive Occasion where
  | request (stamp : Stamp) (r : Request)
  /-- Time passes, and runs of campaigns are completed. -/
  | wait (stamps : Nat → Stamp) (ms : Nat)
  | purge (now : Instant)

def after (w : Service) : Occasion → Service
  | .request stamp r => (w.answer stamp r).2
  | .wait stamps ms => { w with crm := w.crm.advance stamps ms }
  | .purge now => { w with desk := (w.desk.purge now).2 }

/-- The service after all that happens to it. -/
def run (w : Service) (occasions : List Occasion) : Service := occasions.foldl after w

/-- A token that no login has stays unknown unless somebody is logged in with it. -/
theorem unknown_after {o : Occasion} (h : w.Unknown token)
    (noLogin : ∀ stamp r, o = .request stamp r → ¬w.LogsIn stamp r token) :
    (w.after o).Unknown token := by
  intro l hl same
  cases o with
  | request stamp r =>
    rcases mem_answer hl with hl | new
    · exact h l hl same
    · exact noLogin stamp r rfl (same ▸ new)
  | wait stamps ms => exact h l hl same
  | purge now => exact h l (Desk.mem_purge.mp hl).1 same

theorem unknown_run {later : List Occasion} (h : w.Unknown token)
    (noLogin : ∀ past stamp r future, later = past ++ .request stamp r :: future →
      ¬(w.run past).LogsIn stamp r token) :
    (w.run later).Unknown token := by
  induction later generalizing w with
  | nil => exact h
  | cons o later ih =>
    refine ih (w := w.after o) (unknown_after h ?_) ?_
    · rintro stamp r rfl
      exact noLogin [] stamp r later rfl
    · rintro past stamp r future rfl
      exact noLogin (o :: past) stamp r future rfl

/-! ## All strangers -/

/-- Every stranger who asks for a resource of users is refused by the status 401 with a remark that
depends on whether a token was presented. The refusal is the same for every service in which they
are a stranger, whatever the resource and the rest of the request. It leaves the records and the
timers as they are, and of the logins it can only take away one that has expired and was presented.
From a logout on, everybody who presents the same token is refused, whatever happens in between,
until somebody is logged in with this very token. -/
theorem strangers_refused :
    (∀ (w : Service) (stamp : Stamp) (r : Request), r.IsGuarded →
      w.Stranger stamp.now r.authorization →
        (∃ reply, (w.answer stamp r).1 = some reply ∧ reply.status = 401) ∧
        ((∀ token, ¬Presents r.authorization token) →
          (w.answer stamp r).1 = some (r.method.sent (.saying 401 "missing_auth"
            "Authorization header with Bearer token required"))) ∧
        (∀ token, Presents r.authorization token →
          (w.answer stamp r).1 = some (r.method.sent (.saying 401 "invalid_token"
            "Invalid or expired bearer token"))) ∧
        (∀ (w' : Service) (stamp' : Stamp) (r' : Request), r'.IsGuarded →
          w'.Stranger stamp'.now r'.authorization → r'.authorization = r.authorization →
          (r'.method = .head ↔ r.method = .head) →
            (w'.answer stamp' r').1 = (w.answer stamp r).1) ∧
        (w.answer stamp r).2.crm = w.crm ∧
        w.OnlyForgets (w.answer stamp r).2 stamp.now r.authorization) ∧
    ∀ (w : Service) (stamp : Stamp) (r : Request) (token : String), r.method = .post →
      Route.ofTarget? r.target = some .logout → Presents r.authorization token →
        ∀ later : List Occasion,
          (∀ past stamp' r' future, later = past ++ .request stamp' r' :: future →
            ¬((w.answer stamp r).2.run past).LogsIn stamp' r' token) →
          ∀ stamp' r', r'.IsGuarded → Presents r'.authorization token →
            (((w.answer stamp r).2.run later).answer stamp' r').1 =
              some (r'.method.sent (.saying 401 "invalid_token" "Invalid or expired bearer token")) := by
  constructor
  · intro w stamp r guarded stranger
    obtain ⟨reply, forgets⟩ := answer_stranger guarded stranger
    rw [reply]
    refine ⟨?_, ?_, ?_, ?_, forgets.crm_eq, forgets⟩
    · exact ⟨_, rfl, by simp⟩
    · intro silent
      rw [refusal_of_not_presents silent]
      rfl
    · intro token presents
      rw [refusal_of_presents presents]
      rfl
    · intro w' stamp' r' guarded' stranger' same heads
      rw [(answer_stranger guarded' stranger').1, same]
      simp only [Method.sent, heads]
  · intro w stamp r token posted named presents later noLogin stamp' r' guarded presents'
    have unknown := unknown_run (unknown_logOut posted named presents) noLogin
    rw [(answer_stranger guarded (unknown.stranger presents')).1, refusal_of_presents presents']
    rfl

def ask (m : Method) (path : String) (header : Option String) (body : String) : Request :=
  ⟨m, ⟨path.toList, []⟩, header, some "application/json", body⟩

/-- The service where the administrator has logged in. -/
def loggedIn : Service :=
  let w := begin .usual ⟨7⟩ .epoch
  { w with desk := (w.desk.login (Desk.visit 0 "crm_1") ⟨"admin@xeno-crm.com", "admin123"⟩).2 }

/-- What happens after the administrator has logged out: the token is tried once more, time passes,
and the desk is tidied up. -/
def afterwards : List Occasion :=
  [.request (Desk.visit 2 "") (ask .get "/api/auth/me" (some "Bearer crm_1") ""),
    .wait (fun _ ↦ Desk.visit 3 "") 5000, .purge (Desk.visit 4 "").now]

/-- A request without a token is refused before its body is looked at, and one with the token of the
login in the second in which it has lasted a week. After a logout that was accepted the token is
refused, though it is written in another way. -/
theorem strangers_refused_loggedOut :
    let out := ask .post "/api/auth/logout" (some "Bearer crm_1") ""
    let bad := Reply.saying 401 "invalid_token" "Invalid or expired bearer token"
    (loggedIn.answer (Desk.visit 1 "") (ask .post "/api/campaigns" none "none")).1 =
        some (.saying 401 "missing_auth" "Authorization header with Bearer token required") ∧
      (loggedIn.answer (Desk.visit 604800 "") (ask .get "/api/orders" (some "Bearer crm_1") "")).1 =
        some bad ∧
      (loggedIn.answer (Desk.visit 1 "") out).1.map (·.status) = some 204 ∧
      (((loggedIn.answer (Desk.visit 1 "") out).2.run afterwards).answer (Desk.visit 5 "")
        (ask .get "/api/customers" (some "Bearer  crm_1 ") "")).1 = some bad := by
  intro out bad
  obtain ⟨anyone, afterLogout⟩ := strangers_refused
  have presents : Presents (some "Bearer crm_1") "crm_1" :=
    token?_eq_some_iff.mp (by decide +kernel)
  have presents' : Presents (some "Bearer  crm_1 ") "crm_1" :=
    token?_eq_some_iff.mp (by decide +kernel)
  refine ⟨?_, ?_, by decide +kernel, ?_⟩
  · have guarded : (ask .post "/api/campaigns" none "none").IsGuarded :=
      ⟨by decide, .campaigns, by decide +kernel, by decide, by decide, by decide, by decide⟩
    have silent (token : String) : ¬Presents none token := by
      rintro ⟨text, rest, ⟨⟩, -⟩
    obtain ⟨-, missing, -⟩ := anyone loggedIn (Desk.visit 1 "") _ guarded
      fun token presents ↦ absurd presents (silent token)
    exact missing silent
  · have guarded : (ask .get "/api/orders" (some "Bearer crm_1") "").IsGuarded :=
      ⟨by decide, .orders, by decide +kernel, by decide, by decide, by decide, by decide⟩
    have expired : ∀ l ∈ loggedIn.desk.logins.rows, l.expiresAt ≤ (Desk.visit 604800 "").now := by
      decide +kernel
    obtain ⟨-, -, refused, -⟩ := anyone loggedIn (Desk.visit 604800 "") _ guarded
      fun _ _ l hl _ ↦ expired l hl
    exact refused "crm_1" presents
  · have guarded : (ask .get "/api/customers" (some "Bearer  crm_1 ") "").IsGuarded :=
      ⟨by decide, .customers, by decide +kernel, by decide, by decide, by decide, by decide⟩
    refine afterLogout loggedIn (Desk.visit 1 "") out "crm_1" rfl (by decide +kernel) presents
      afterwards ?_ (Desk.visit 5 "") _ guarded presents'
    rintro past stamp r future split ⟨posted, -⟩
    have asked : .request stamp r ∈ afterwards := by simp [split]
    simp only [afterwards, List.mem_cons, List.not_mem_nil, or_false, reduceCtorEq,
      Occasion.request.injEq] at asked
    rw [asked.2] at posted
    cases posted

end Service

end Outreach
