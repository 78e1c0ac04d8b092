import Mathlib.Data.Option.Basic
import Outreach.Proofs.Crm.Refusals
import Outreach.Proofs.Http.Strangers

/-!
# Commands by requests

Users have commands carried out by requests. A request to one of the endpoints does what the command
does when it is called directly in the name of the user whose token is presented, and the reply tells
what the call answered. A request whose body is not what the endpoint reads does nothing.

What is replied to the faults of calls stands here in full, each with its status, the word for its sort
and what it says. There is no reply to a fault that the program does not survive.
-/

namespace Outreach

open Calendar Http

/-! ## Direct calls -/

/-- What a command that is not refused answers. -/
inductive Crm.Result where
  | customer (c : Customer)
  | order (o : Order)
  | campaign (c : Campaign)
  /-- Nothing, since something was deleted. -/
  | nothing

/-- The same outcome, answered in another form. -/
def Outcome.answered {σ α β : Type} (f : α → β) (o : Outcome σ α) : Outcome σ β := (o.1.map f, o.2)

/-- Whether an operation was carried out does not depend on the form of its answer. -/
theorem Outcome.verdict_answered {σ α β : Type} (f : α → β) (o : Outcome σ α) :
    (o.answered f).verdict = o.verdict := by
  obtain ⟨answer, s⟩ := o
  cases answer <;> rfl

/-- A command about customers and orders, called directly. -/
def Store.call (s : Store) (stamp : Stamp) : Store.Command → Outcome Store Crm.Result
  | .createCustomer r => (s.createCustomer stamp r).answered .customer
  | .updateCustomer id r => (s.updateCustomer stamp id r).answered .customer
  | .deleteCustomer id => (s.deleteCustomer id).answered fun _ ↦ .nothing
  | .createOrder r => (s.createOrder stamp r).answered .order
  | .moveOrder id status => (s.updateOrderStatus stamp id status).answered .order
  | .deleteOrder id => (s.deleteOrder stamp id).answered fun _ ↦ .nothing

theorem Store.verdict_call (s : Store) (stamp : Stamp) (c : Store.Command) :
    (s.call stamp c).verdict = s.perform stamp c := by
  cases c <;> exact Outcome.verdict_answered _ _

namespace Crm

variable (settings : Settings.Campaigns) (w : Crm) (stamp : Stamp)

/-- A command, called directly. -/
def call : Command → Outcome Crm Result
  | .records c =>
    let o := w.store.call stamp c
    (o.1, { w with store := o.2 })
  | .create user r => (w.createCampaign stamp user r).answered .campaign
  | .update user id r => (w.updateCampaign stamp user id r).answered .campaign
  | .delete user id => (w.deleteCampaign stamp user id).answered fun _ ↦ .nothing
  | .start user id => (w.startCampaign settings stamp user id).answered .campaign
  | .pause user id => (w.pauseCampaign stamp user id).answered .campaign

/-- A call does what the command does, and answers more than whether it was carried out. -/
theorem verdict_call (c : Command) :
    (w.call settings stamp c).verdict = w.perform settings stamp c := by
  cases c with
  | records c =>
    exact congrArg (fun o ↦ (o.1, { w with store := o.2 })) (w.store.verdict_call stamp c)
  | _ => exact Outcome.verdict_answered _ _

/-- A call that is refused leaves everything as it was. -/
theorem call_harmless (c : Command) : (w.call settings stamp c).Harmless w := by
  intro f refused
  have verdict : (w.perform settings stamp c).1 = .error f := by
    rw [← verdict_call, Outcome.verdict, refused]
    rfl
  have same := w.perform_harmless settings stamp c f verdict
  rwa [← verdict_call] at same

end Crm

/-! ## Faults -/

open Http in
/-- What is replied to a fault. -/
def Fault.reply? : Fault → Option Reply
  | .missing .customer => some (.saying 404 "not_found" "Customer not found")
  | .missing .order => some (.saying 404 "not_found" "Order not found")
  | .missing .campaign => some (.saying 404 "not_found" "Campaign not found")
  | .emailTaken => some (.saying 409 "conflict" "Customer with this email already exists")
  | .pageBelowOne => some (.saying 400 "validation_failed" "Page must be a positive integer")
  | .limitOutOfRange => some (.saying 400 "validation_failed" "Limit must be between 1 and 100")
  | .customerNameShort => some (.saying 400 "validation_failed" "Name must be at least 2 characters")
  | .emailMalformed => some (.saying 400 "validation_failed" "Please provide a valid email")
  | .spendingNegative =>
    some (.saying 400 "validation_failed" "Total spending must be a non-negative number")
  | .noItems => some (.saying 400 "validation_failed" "At least one item is required")
  | .totalNegative => some (.saying 400 "validation_failed" "Total amount must be non-negative")
  | .productBlank => some (.saying 400 "validation_failed" "Product name is required")
  | .quantityZero => some (.saying 400 "validation_failed" "Quantity must be at least 1")
  | .priceNegative => some (.saying 400 "validation_failed" "Price must be non-negative")
  | .totalMismatch =>
    some (.saying 400 "validation_failed" "Total amount does not match sum of items")
  | .campaignNameShort =>
    some (.saying 400 "validation_failed" "Campaign name must be at least 2 characters")
  | .contentBlank => some (.saying 400 "validation_failed" "Message content is required")
  | .statusNotAssignable status => some (.saying 400 "validation_failed"
      ("Status can only be set to draft, scheduled or cancelled, not " ++ status.name))
  | .bodyUnreadable => some (.saying 400 "validation_failed" "The request body could not be read")
  | .cannotStart => some (.saying 400 "invalid_state" "Campaign cannot be started")
  | .cannotPause => some (.saying 400 "invalid_state" "Only running campaigns can be paused")
  | .cannotComplete status =>
    some (.saying 400 "invalid_state" ("Cannot complete a " ++ status.name ++ " campaign"))
  | .cannotEdit => some (.saying 400 "invalid_state" "Cannot edit running or completed campaigns")
  | .cannotDelete => some (.saying 400 "invalid_state" "Cannot delete running campaigns")
  | .badCredentials => some (.saying 401 "unauthorized" "Invalid email or password")
  | .badToken => some (.saying 401 "unauthorized" "Invalid or expired bearer token")
  | .clockEnded | .countFull => none

theorem Fault.ofFault?_eq_reply? (f : Fault) : Http.Reply.ofFault? f = f.reply? := by
  cases f with
  | missing what => cases what <;> rfl
  | _ => rfl

/-- Faults of the service itself are not described, whatever is known of them. -/
theorem Report.reply_of_own_fault {r : Report}
    (own : r.kind = .configuration ∨ r.kind = .serialization ∨ r.kind = .internal) :
    r.reply = .saying 500 "internal_error" "Something went wrong" := by
  obtain ⟨kind, detail⟩ := r
  rcases own with rfl | rfl | rfl <;> rfl

namespace Http

/-! ## Endpoints -/

/-- Where commands are taken: a method and a path, which may end in or contain an identity. -/
inductive Endpoint where
  | createCustomer
  | updateCustomer (id : Id)
  | deleteCustomer (id : Id)
  | createOrder
  | moveOrder (id : Id)
  | deleteOrder (id : Id)
  | createCampaign
  | updateCampaign (id : Id)
  | deleteCampaign (id : Id)
  | startCampaign (id : Id)
  | pauseCampaign (id : Id)

namespace Endpoint

def method : Endpoint → Method
  | .createCustomer | .createOrder | .createCampaign | .startCampaign _ | .pauseCampaign _ => .post
  | .updateCustomer _ | .updateCampaign _ => .put
  | .moveOrder _ => .patch
  | .deleteCustomer _ | .deleteOrder _ | .deleteCampaign _ => .delete

/-- The parts of the path of an endpoint, the identity being spelled in some way. -/
def segments (spelled : String) : Endpoint → List String
  | .createCustomer => ["api", "customers"]
  | .updateCustomer _ | .deleteCustomer _ => ["api", "customers", spelled]
  | .createOrder => ["api", "orders"]
  | .moveOrder _ => ["api", "orders", spelled, "status"]
  | .deleteOrder _ => ["api", "orders", spelled]
  | .createCampaign => ["api", "campaigns"]
  | .updateCampaign _ | .deleteCampaign _ => ["api", "campaigns", spelled]
  | .startCampaign _ => ["api", "campaigns", spelled, "start"]
  | .pauseCampaign _ => ["api", "campaigns", spelled, "pause"]

def route (spelled : String) : Endpoint → Route
  | .createCustomer => .customers
  | .updateCustomer _ | .deleteCustomer _ => .customer spelled
  | .createOrder => .orders
  | .moveOrder _ => .orderStatus spelled
  | .deleteOrder _ => .order spelled
  | .createCampaign => .campaigns
  | .updateCampaign _ | .deleteCampaign _ => .campaign spelled
  | .startCampaign _ => .campaignStart spelled
  | .pauseCampaign _ => .campaignPause spelled

/-- The identity in the path of an endpoint. -/
def id? : Endpoint → Option Id
  | .createCustomer | .createOrder | .createCampaign => none
  | .updateCustomer id | .deleteCustomer id | .moveOrder id | .deleteOrder id
  | .updateCampaign id | .deleteCampaign id | .startCampaign id | .pauseCampaign id => some id

/-- The endpoint looks at the body of a request. -/
def ReadsBody : Endpoint → Prop
  | .createCustomer | .updateCustomer _ | .createOrder | .moveOrder _ | .createCampaign
  | .updateCampaign _ => True
  | .deleteCustomer _ | .deleteOrder _ | .deleteCampaign _ | .startCampaign _ | .pauseCampaign _ =>
    False

/-- The status of a reply that tells of no fault. -/
def success : Endpoint → Nat
  | .createCustomer | .createOrder | .createCampaign => 201
  | .deleteCustomer _ | .deleteOrder _ | .deleteCampaign _ => 204
  | _ => 200

end Endpoint

/-! ## What requests ask for -/

variable {α : Type} {read : Json → Option α} {a : α} {e : Endpoint} {r : Request} {user : User}

/-- A request is for an endpoint, however the identity in its path is spelled. -/
structure Request.IsFor (r : Request) (e : Endpoint) : Prop where
  method : r.method = e.method
  path : ∃ spelled, r.target.segments = e.segments spelled ∧
    ∀ id, e.id? = some id → Route.id? spelled = some id

/-- The body of a request is said to be JSON. -/
def Request.SentAsJson (r : Request) : Prop :=
  ∃ text, r.contentType = some text ∧ text.toList.all Service.isVisible = true ∧
    MediaType.isJson text = true

/-- The body of a request is not too long and reads into a record. -/
def Request.Reads (read : Json → Option α) (a : α) (r : Request) : Prop :=
  r.body.utf8ByteSize ≤ Service.maxBodyBytes ∧ ∃ j, Json.leading? r.body = some j ∧ read j = some a

/-- What a request to an endpoint asks for in the name of a user. -/
inductive Endpoint.Asks (user : User) (r : Request) : Endpoint → Crm.Command → Prop where
  | createCustomer {a : Customer.New} (reads : r.Reads Customer.New.ofJson? a) :
    Asks user r .createCustomer (.records (.createCustomer a))
  | updateCustomer {id : Id} {a : Customer.Change} (reads : r.Reads Customer.Change.ofJson? a) :
    Asks user r (.updateCustomer id) (.records (.updateCustomer id a))
  | deleteCustomer {id : Id} : Asks user r (.deleteCustomer id) (.records (.deleteCustomer id))
  | createOrder {a : Order.New} (reads : r.Reads Order.New.ofJson? a) :
    Asks user r .createOrder (.records (.createOrder a))
  | moveOrder {id : Id} {status : Order.Status} (reads : r.Reads Service.orderStatus? status) :
    Asks user r (.moveOrder id) (.records (.moveOrder id status))
  | deleteOrder {id : Id} : Asks user r (.deleteOrder id) (.records (.deleteOrder id))
  | createCampaign {a : Campaign.New} (reads : r.Reads Campaign.New.ofJson? a) :
    Asks user r .createCampaign (.create user a)
  | updateCampaign {id : Id} {a : Campaign.Edit} (reads : r.Reads Campaign.Edit.ofJson? a) :
    Asks user r (.updateCampaign id) (.update user id a)
  | deleteCampaign {id : Id} : Asks user r (.deleteCampaign id) (.delete user id)
  | startCampaign {id : Id} : Asks user r (.startCampaign id) (.start user id)
  | pauseCampaign {id : Id} : Asks user r (.pauseCampaign id) (.pause user id)

/-- What a reply says of the answer to a call. -/
def Body.ofResult : Crm.Result → Body
  | .customer c => .json c.toJson
  | .order o => .json o.toJson
  | .campaign c => .json c.toJson
  | .nothing => .empty

/-- The reply of an endpoint to the answer to a call. -/
def Endpoint.reply? (e : Endpoint) : Except Fault Crm.Result → Option Reply
  | .ok a => some ⟨e.success, .ofResult a⟩
  | .error f => f.reply?

/-- Neither nothing nor the name of another resource spells an identity. -/
theorem Route.ne_of_id? {part : String} {id : Id} (h : Route.id? part = some id) :
    part ≠ "" ∧ part ≠ "preview-audience" := by
  have nothing : Route.id? "" = none := by decide +kernel
  have preview : Route.id? "preview-audience" = none := by decide +kernel
  constructor <;> rintro rfl
  · rw [nothing] at h
    cases h
  · rw [preview] at h
    cases h

/-- A request for an endpoint is for its resource. -/
theorem Request.IsFor.route (h : r.IsFor e) :
    ∃ spelled, Route.ofTarget? r.target = some (e.route spelled) ∧
      ∀ id, e.id? = some id → Route.id? spelled = some id := by
  obtain ⟨spelled, path, spells⟩ := h.path
  refine ⟨spelled, ?_, spells⟩
  rw [Route.ofTarget?, path]
  cases e with
  | createCustomer | createOrder | createCampaign => rfl
  | updateCustomer id | deleteCustomer id | moveOrder id | deleteOrder id | updateCampaign id
  | deleteCampaign id | startCampaign id | pauseCampaign id =>
    obtain ⟨something, other⟩ := Route.ne_of_id? (spells id rfl)
    simp only [Endpoint.segments, Endpoint.route, Route.ofSegments?, Route.withId, something,
      if_false]

end Http

/-- The token of a live login is accepted, and nothing is forgotten. -/
theorem Desk.verify_of_live {d : Desk} {now : Instant} {l : Login} (hl : l ∈ d.logins.rows)
    (live : now < l.expiresAt) : d.verify now l.token = (.ok l.user, d) := by
  have found : d.logins.find? l.token = some l := Table.find?_eq_some_iff.mpr ⟨hl, rfl⟩
  have good : l.isLive now = true := live
  simp only [verify, found, good, if_true]

namespace Service

variable {α : Type} {read : Json → Option α} {a : α} {w : Service} {stamp : Stamp} {r : Request}
  {e : Endpoint} {user : User} {l : Login} {c : Crm.Command}

/-! ## Parts of requests -/

/-- What is guarded goes on if the condition holds. -/
theorem guard_bind_eq_some_iff {p : Prop} [Decidable p] {o : Option α} :
    ((guard p : Option Unit).bind fun _ ↦ o) = some a ↔ p ∧ o = some a := by
  constructor
  · intro h
    obtain ⟨u, holds, h⟩ := Option.bind_eq_some_iff.mp h
    exact ⟨(Option.guard_eq_some' u).mp holds, h⟩
  · rintro ⟨holds, h⟩
    rw [(Option.guard_eq_some' ()).mpr holds, Option.bind_some, h]

theorem body?_eq_some_iff : body? read r = some a ↔ r.SentAsJson ∧ r.Reads read a := by
  unfold body?
  cases header : r.contentType with
  | none =>
    refine iff_of_false nofun ?_
    rintro ⟨⟨text, sent, -⟩, -⟩
    rw [header] at sent
    cases sent
  | some text =>
    have sent : r.SentAsJson ↔ text.toList.all isVisible = true ∧ MediaType.isJson text = true := by
      simp only [Request.SentAsJson, header, Option.some.injEq, exists_eq_left']
    show ((guard _ : Option Unit).bind fun _ ↦ (guard _ : Option Unit).bind fun _ ↦
      (Json.leading? r.body).bind read) = some a ↔ _
    rw [guard_bind_eq_some_iff, guard_bind_eq_some_iff, Bool.and_eq_true, Option.bind_eq_some_iff,
      sent, Request.Reads]

theorem withBody_of_reads {go : α → Answer} (sent : r.SentAsJson)
    (reads : r.Reads read a) : w.withBody read r go = go a := by
  rw [withBody, body?_eq_some_iff.mpr ⟨sent, reads⟩]

theorem withBody_of_not_reads {go : α → Answer} (h : ∀ a, ¬r.Reads read a) :
    w.withBody read r go = (Fault.bodyUnreadable.reply?, w) := by
  have none : body? read r = none :=
    Option.eq_none_iff_forall_ne_some.mpr fun a read ↦ h a (body?_eq_some_iff.mp read).2
  rw [withBody, none]
  exact congrArg (·, w) Fault.bodyUnreadable.ofFault?_eq_reply?

theorem withId_of_id? {part : String} {id : Id} {go : Id → Answer}
    (h : Route.id? part = some id) : w.withId part go = go id := by
  rw [withId, h]

/-! ## Replies -/

theorem found_eq {f : α → Reply} {g : α → Crm.Result}
    (h : ∀ a, f a = ⟨e.success, .ofResult (g a)⟩) (answer : Except Fault α) :
    found f answer = e.reply? (answer.map g) := by
  cases answer with
  | ok a => exact congrArg some (h a)
  | error f => exact f.ofFault?_eq_reply?

theorem stored_eq {f : α → Reply} {g : α → Crm.Result} (o : Outcome Store α)
    (h : ∀ a, f a = ⟨e.success, .ofResult (g a)⟩) :
    w.stored f o =
      (e.reply? (o.answered g).1, { w with crm := { w.crm with store := (o.answered g).2 } }) := by
  rw [stored, found_eq h]
  rfl

theorem done_eq {f : α → Reply} {g : α → Crm.Result} (o : Outcome Crm α)
    (h : ∀ a, f a = ⟨e.success, .ofResult (g a)⟩) :
    w.done f o = (e.reply? (o.answered g).1, { w with crm := (o.answered g).2 }) := by
  rw [done, found_eq h]
  rfl

/-! ## Endpoints -/

/-- A request for an endpoint by a user who is logged in is answered by the resource. -/
theorem answer_isFor (isFor : r.IsFor e) (presents : Presents r.authorization l.token)
    (hl : l ∈ w.desk.logins.rows) (live : stamp.now < l.expiresAt) :
    ∃ spelled, (∀ id, e.id? = some id → Route.id? spelled = some id) ∧
      w.answer stamp r = w.answerUser stamp l.user r e.method (e.route spelled) := by
  obtain ⟨spelled, named, spells⟩ := isFor.route
  refine ⟨spelled, spells, ?_⟩
  have who : w.authenticate stamp.now r.authorization = (.ok l.user, w) := by
    rw [authenticate_of_token? (token?_eq_some_iff.mpr presents), Desk.verify_of_live hl live]
    rfl
  have asked : r.method ≠ .options := by
    rw [isFor.method]
    cases e <;> nofun
  have sent : e.method.sent = id := Method.sent_of_ne (by cases e <;> nofun)
  have same : sought e.method = e.method := by cases e <;> rfl
  have guarded : (e.route spelled).isOpen = false := by cases e <;> rfl
  have known : (e.route spelled).methods.contains e.method = true := by cases e <;> rfl
  rw [answer_eq asked named, isFor.method, same, sent, Option.map_id, id]
  simp only [answerAt, guarded, who, known, Bool.false_eq_true, if_false, if_true]

/-- A request that asks for a command has it carried out. -/
theorem answerUser_asks {spelled : String} (asks : e.Asks user r c)
    (sent : e.ReadsBody → r.SentAsJson) (spells : ∀ id, e.id? = some id → Route.id? spelled = some id) :
    w.answerUser stamp user r e.method (e.route spelled) =
      (e.reply? (w.crm.call w.settings.campaigns stamp c).1,
        { w with crm := (w.crm.call w.settings.campaigns stamp c).2 }) := by
  cases asks with
  | createCustomer reads =>
    exact (withBody_of_reads (sent trivial) reads).trans (stored_eq _ fun _ ↦ rfl)
  | createOrder reads =>
    exact (withBody_of_reads (sent trivial) reads).trans (stored_eq _ fun _ ↦ rfl)
  | createCampaign reads =>
    exact (withBody_of_reads (sent trivial) reads).trans (done_eq _ fun _ ↦ rfl)
  | updateCustomer reads =>
    refine (withId_of_id? (spells _ rfl)).trans ?_
    exact (withBody_of_reads (sent trivial) reads).trans (stored_eq _ fun _ ↦ rfl)
  | moveOrder reads =>
    refine (withId_of_id? (spells _ rfl)).trans ?_
    exact (withBody_of_reads (sent trivial) reads).trans (stored_eq _ fun _ ↦ rfl)
  | updateCampaign reads =>
    refine (withId_of_id? (spells _ rfl)).trans ?_
    exact (withBody_of_reads (sent trivial) reads).trans (done_eq _ fun _ ↦ rfl)
  | deleteCustomer | deleteOrder =>
    exact (withId_of_id? (spells _ rfl)).trans (stored_eq _ fun _ ↦ rfl)
  | deleteCampaign | startCampaign | pauseCampaign =>
    exact (withId_of_id? (spells _ rfl)).trans (done_eq _ fun _ ↦ rfl)

/-- A request that asks for nothing is refused. -/
theorem answerUser_not_asks {spelled : String} (asks : ∀ c, ¬e.Asks user r c)
    (spells : ∀ id, e.id? = some id → Route.id? spelled = some id) :
    w.answerUser stamp user r e.method (e.route spelled) = (Fault.bodyUnreadable.reply?, w) := by
  cases e with
  | createCustomer => exact withBody_of_not_reads fun _ reads ↦ asks _ (.createCustomer reads)
  | createOrder => exact withBody_of_not_reads fun _ reads ↦ asks _ (.createOrder reads)
  | createCampaign => exact withBody_of_not_reads fun _ reads ↦ asks _ (.createCampaign reads)
  | updateCustomer id =>
    refine (withId_of_id? (spells _ rfl)).trans ?_
    exact withBody_of_not_reads fun _ reads ↦ asks _ (.updateCustomer reads)
  | moveOrder id =>
    refine (withId_of_id? (spells _ rfl)).trans ?_
    exact withBody_of_not_reads fun _ reads ↦ asks _ (.moveOrder reads)
  | updateCampaign id =>
    refine (withId_of_id? (spells _ rfl)).trans ?_
    exact withBody_of_not_reads fun _ reads ↦ asks _ (.updateCampaign reads)
  | deleteCustomer id => exact absurd .deleteCustomer (asks _)
  | deleteOrder id => exact absurd .deleteOrder (asks _)
  | deleteCampaign id => exact absurd .deleteCampaign (asks _)
  | startCampaign id => exact absurd .startCampaign (asks _)
  | pauseCampaign id => exact absurd .pauseCampaign (asks _)

/-- A request that asks for a command which is refused tells of the fault and changes nothing. -/
theorem answer_of_refused {f : Fault} (isFor : r.IsFor e)
    (presents : Presents r.authorization l.token) (hl : l ∈ w.desk.logins.rows)
    (live : stamp.now < l.expiresAt) (sent : e.ReadsBody → r.SentAsJson) (asks : e.Asks l.user r c)
    (refused : (w.crm.call w.settings.campaigns stamp c).1 = .error f) :
    w.answer stamp r = (f.reply?, w) := by
  obtain ⟨spelled, spells, answer⟩ := answer_isFor isFor presents hl live
  rw [answer, answerUser_asks asks sent spells, w.crm.call_harmless _ _ _ f refused, refused]
  rfl

/-- A request for an endpoint with the token of a live login does to the records, the audit log and
the timers what the command does that it asks for, called directly in the name of the user of the
login, and nothing else. The reply has the status of the endpoint and what the call answered, or it is
the one to the fault of the call, and then nothing has changed. If the body is not what the endpoint
reads, the reply is a refusal with the status 400, and nothing has changed either. -/
theorem answer_agrees_with_call (w : Service) (stamp : Stamp) (r : Request) (e : Endpoint)
    (l : Login) (isFor : r.IsFor e) (presents : Presents r.authorization l.token)
    (hl : l ∈ w.desk.logins.rows) (live : stamp.now < l.expiresAt)
    (sent : e.ReadsBody → r.SentAsJson) :
    (∀ c, e.Asks l.user r c →
      w.answer stamp r =
        (e.reply? (w.crm.call w.settings.campaigns stamp c).1,
          { w with crm := (w.crm.call w.settings.campaigns stamp c).2 })) ∧
    (∀ c f, e.Asks l.user r c → (w.crm.call w.settings.campaigns stamp c).1 = .error f →
      w.answer stamp r = (f.reply?, w)) ∧
    ((∀ c, ¬e.Asks l.user r c) →
      ∃ message, w.answer stamp r = (some (.saying 400 "validation_failed" message), w)) := by
  obtain ⟨spelled, spells, answer⟩ := answer_isFor isFor presents hl live
  refine ⟨?_, ?_, ?_⟩
  · intro c asks
    rw [answer]
    exact answerUser_asks asks sent spells
  · intro c f asks refused
    exact answer_of_refused isFor presents hl live sent asks refused
  · intro asks
    rw [answer, answerUser_not_asks asks spells]
    exact ⟨_, rfl⟩

/-- The login of the administrator who is logged in. -/
def adminLogin : Login := ⟨"crm_1", loggedIn.desk.admin, (Desk.visit 604800 "").now⟩

/-- The service where the administrator is logged in and a campaign is running. -/
def busy : Service := { loggedIn with crm := .atWork }

/-- The request of the administrator that an order be moved. -/
def moving (body : String) : Request :=
  ask .patch "/api/orders/00000000-0000-0000-0000-000000000009/status" (some "Bearer crm_1") body

/-- The request of the administrator that the running campaign be paused. -/
def pausing : Request :=
  ask .post "/api/campaigns/00000000000000000000000000000002/pause" (some "Bearer crm_1") ""

/-- The campaign is paused in the name of the administrator. An order that is not there is not moved,
and what is not the name of a status is not read. -/
theorem answer_agrees_with_call_busy :
    (busy.answer (Crm.tick 9) pausing).1.map (·.status) = some 200 ∧
      (busy.answer (Crm.tick 9) pausing).2.crm =
        (Crm.atWork.pauseCampaign (Crm.tick 9) busy.desk.admin ⟨2⟩).2 ∧
      busy.answer (Crm.tick 9) (moving "\x7b\"status\": \"shipped\"\x7d") =
        (some ⟨404, .json (.object [("error", .text "not_found"),
          ("message", .text "Order not found")])⟩, busy) ∧
      ∃ message, busy.answer (Crm.tick 9) (moving "\x7b\"status\": \"lost\"\x7d") =
        (some ⟨400, .json (.object [("error", .text "validation_failed"),
          ("message", .text message)])⟩, busy) := by
  have presents : Presents (some "Bearer crm_1") adminLogin.token :=
    token?_eq_some_iff.mp (by decide +kernel)
  have known : adminLogin ∈ busy.desk.logins.rows := by decide +kernel
  have live : (Crm.tick 9).now < adminLogin.expiresAt := by decide +kernel
  have sent (body : String) : (moving body).SentAsJson :=
    ⟨"application/json", rfl, by decide +kernel, by decide +kernel⟩
  have toMove (body : String) : (moving body).IsFor (.moveOrder ⟨9⟩) := by
    refine ⟨rfl, "00000000-0000-0000-0000-000000000009", ?_, ?_⟩
    · show Target.segments ⟨_, _⟩ = _
      decide +kernel
    · rintro id ⟨⟩
      decide +kernel
  have toPause : pausing.IsFor (.pauseCampaign ⟨2⟩) := by
    refine ⟨rfl, "00000000000000000000000000000002", by decide +kernel, ?_⟩
    rintro id ⟨⟩
    decide +kernel
  have paused := (answer_agrees_with_call busy (Crm.tick 9) _ _ adminLogin toPause presents known live
    nofun).1 _ .pauseCampaign
  refine ⟨by decide +kernel, ?_, ?_, ?_⟩
  · rw [paused]
    rfl
  · have read : (Json.leading? "\x7b\"status\": \"shipped\"\x7d").bind orderStatus? =
        some .shipped := by decide +kernel
    obtain ⟨j, leading, shipped⟩ := Option.bind_eq_some_iff.mp read
    obtain ⟨-, refused, -⟩ := answer_agrees_with_call busy (Crm.tick 9) _ _ adminLogin (toMove _)
      presents known live fun _ ↦ sent _
    exact refused _ _ (.moveOrder ⟨by decide +kernel, j, leading, shipped⟩) rfl
  · have unread : (Json.leading? "\x7b\"status\": \"lost\"\x7d").bind orderStatus? = none := by
      decide +kernel
    obtain ⟨-, -, unreadable⟩ := answer_agrees_with_call busy (Crm.tick 9) _ _ adminLogin (toMove _)
      presents known live fun _ ↦ sent _
    refine unreadable fun c asks ↦ ?_
    cases asks with
    | moveOrder reads =>
      obtain ⟨-, j, leading, lost⟩ := reads
      have : (Json.leading? "\x7b\"status\": \"lost\"\x7d").bind orderStatus? = some _ :=
        Option.bind_eq_some_iff.mpr ⟨j, leading, lost⟩
      rw [unread] at this
      cases this

end Service

end Outreach
