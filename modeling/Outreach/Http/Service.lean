import Outreach.Crm.Basic
import Outreach.Http.MediaType
import Outreach.Http.Query
import Outreach.Http.Reply
import Outreach.Http.Route
import Outreach.Json.Reader
import Outreach.Login
import Outreach.Store.Figures
import Outreach.Store.Performance

/-!
# The service

How requests are answered. First the resource is looked up, then who is asking is found out, unless
the resource is open to everyone; then the method is looked at, the identity in the path, the query
and at last the body. The first of these that does not suit decides the reply. There is no reply if
the program does not survive the request.
-/

namespace Outreach

open Calendar

/-- Everything that the service works with. -/
structure Service where
  settings : Settings
  crm : Crm
  desk : Desk
  isReady : Bool
  startedAt : Instant

namespace Service

open Http

/-- The service with some settings, before anything has been done. -/
def begin (settings : Settings) (adminId : Id) (now : Instant) : Service where
  settings
  crm := .empty
  desk := .ofSettings settings.auth adminId
  isReady := false
  startedAt := now

def withStore (w : Service) (s : Store) : Service := { w with crm := { w.crm with store := s } }

/-- The reply to a request, if there is one, and the service after it. -/
abbrev Answer := Option Reply × Service

/-- The service gives a reply and stays as it is. -/
def replies (w : Service) (reply : Reply) : Answer := (some reply, w)

@[simp] theorem snd_replies (w : Service) (reply : Reply) : (w.replies reply).2 = w := rfl

/-! ## Who is asking -/

/-- The characters that may stand in a header for it to be read. -/
def isVisible (c : Char) : Bool := c == '\t' || 0x20 ≤ c.toNat && c.toNat < 0x7F

def token? (header : Option String) : Option String := do
  let cs := (← header).toList
  guard (cs.all isVisible)
  let rest ← Text.dropPrefix? ['B', 'e', 'a', 'r', 'e', 'r', ' '] cs
  return String.ofList (Text.trimChars rest)

/-- The reply to a request without a token. -/
def tokenMissing : Reply :=
  ⟨401, .json (Reply.errorJson "missing_auth" "Authorization header with Bearer token required")⟩

/-- The reply to a request with a token that is not good. -/
def tokenBad : Reply :=
  ⟨401, .json (Reply.errorJson "invalid_token" "Invalid or expired bearer token")⟩

def authenticate (w : Service) (now : Instant) (header : Option String) :
    Except Reply User × Service :=
  match token? header with
  | none => (.error tokenMissing, w)
  | some token =>
    match w.desk.verify now token with
    | (.ok user, desk) => (.ok user, { w with desk })
    | (.error _, desk) => (.error tokenBad, { w with desk })

/-! ## Parts of a request -/

/-- The reply where a path or a query cannot be read. -/
def unreadable : Reply := ⟨400, .plain "The path or the query could not be read"⟩

/-- The most bytes that a body may have to be looked at. -/
def maxBodyBytes : Nat := 2097152

/-- The record that the body of a request is. -/
def body? {α : Type} (read : Json → Option α) (r : Request) : Option α := do
  guard ((← r.contentType).toList.all isVisible && MediaType.isJson (← r.contentType))
  guard (r.body.utf8ByteSize ≤ maxBodyBytes)
  read (← Json.leading? r.body)

/-- Go on with the body of a request, or refuse it. -/
def withBody {α : Type} (w : Service) (read : Json → Option α) (r : Request)
    (go : α → Answer) : Answer :=
  match body? read r with
  | some a => go a
  | none => (Reply.ofFault? .bodyUnreadable, w)

/-- Go on with the identity in a path, or refuse it. -/
def withId (w : Service) (part : String) (go : Id → Answer) : Answer :=
  match Route.id? part with
  | some id => go id
  | none => w.replies unreadable

/-- Go on with a query, or refuse it. -/
def withQuery {α : Type} (w : Service) (q : Option α) (go : α → Answer) : Answer :=
  match q with
  | some a => go a
  | none => w.replies unreadable

/-! ## Replies to outcomes -/

variable {α : Type}

/-- The reply to what was found, or to the fault. -/
def found (f : α → Reply) : Except Fault α → Option Reply
  | .ok a => some (f a)
  | .error e => Reply.ofFault? e

/-- The reply to what was done to the store, and the service after it. -/
def stored (w : Service) (f : α → Reply) (o : Outcome Store α) : Answer :=
  (found f o.1, w.withStore o.2)

/-- The reply to what was done to the campaigns, and the service after it. -/
def done (w : Service) (f : α → Reply) (o : Outcome Crm α) : Answer :=
  (found f o.1, { w with crm := o.2 })

/-- The reply with the value of what was found. -/
def okWith (f : α → Json) (a : α) : Reply := .ok (f a)

/-- The reply with the value of what was made. -/
def createdWith (f : α → Json) (a : α) : Reply := .created (f a)

def nothing (_ : α) : Reply := .noContent

/-! ## Resources open to everyone -/

/-- Log in and write it into the audit log. -/
def logIn (w : Service) (stamp : Stamp) (r : Login.Request) : Answer :=
  match w.desk.login stamp r with
  | (.error f, desk) => (Reply.ofFault? f, { w with desk })
  | (.ok l, desk) =>
    ({ w with desk }.withStore (w.crm.store.record stamp l.user.email .login "user" l.user.id.text
      (.object []))).replies (.ok l.toJson)

/-- The value that tells how the service is. -/
def healthJson (w : Service) (now : Instant) : Json :=
  .object [("status", .text "healthy"), ("nodeId", .text w.settings.nodeId),
    ("uptimeSecs", .ofSize (now.secs - w.startedAt.secs).toNat),
    ("customers", .ofSize w.crm.store.customers.size)]

/-- Answer a request to a resource that is open to everyone, whose method is known. -/
def answerOpen (w : Service) (stamp : Stamp) (r : Request) : Route → Answer
  | .login => w.withBody Login.Request.ofJson? r (w.logIn stamp)
  | .health => w.replies (.ok (w.healthJson stamp.now))
  | .ready => w.replies (.bare (if w.isReady then 200 else 503))
  | _ => w.replies (.bare 200)

/-! ## Resources for users -/

open Json Json.Fields in
/-- The rules of a request for a preview. -/
def previewRules? : Json → Option (List Rule) := record? (required "audienceRules" (list? Rule.ofJson?))

open Json Json.Fields in
/-- The rules of a request for insights. -/
def insightRules? : Json → Option (List Rule) := record? (required "rules" (list? Rule.ofJson?))

open Json Json.Fields in
/-- The status of a request to move an order. -/
def orderStatus? : Json → Option Order.Status := record? (required "status" Order.Status.ofJson?)

/-- Answer a request of a user, whose method is known. -/
def answerUser (w : Service) (stamp : Stamp) (user : User) (r : Request) (m : Method) :
    Route → Answer
  | .me => w.replies (.ok user.toJson)
  | .logout =>
    let desk := match token? r.authorization with
      | some token => (w.desk.logout token).2
      | none => w.desk
    { w with desk }.replies .noContent
  | .customers =>
    if m = .get then
      w.withQuery (Query.customers? r.target.query) fun q ↦
        (found (okWith (Paging.Page.toJson Customer.toJson)) (w.crm.store.listCustomers q), w)
    else
      w.withBody Customer.New.ofJson? r fun a ↦
        w.stored (createdWith Customer.toJson) (w.crm.store.createCustomer stamp a)
  | .customerFigures => w.replies (.ok w.crm.store.customerFigures.toJson)
  | .customer part => w.withId part fun id ↦
    if m = .get then
      (found (okWith Store.CustomerDetail.toJson) (w.crm.store.customerDetail id), w)
    else if m = .put then
      w.withBody Customer.Change.ofJson? r fun a ↦
        w.stored (okWith Customer.toJson) (w.crm.store.updateCustomer stamp id a)
    else w.stored nothing (w.crm.store.deleteCustomer id)
  | .orders =>
    if m = .get then
      w.withQuery (Query.orders? r.target.query) fun q ↦
        (found (okWith (Paging.Page.toJson Order.toJson)) (w.crm.store.listOrders q), w)
    else
      w.withBody Order.New.ofJson? r fun a ↦
        w.stored (createdWith Order.toJson) (w.crm.store.createOrder stamp a)
  | .orderFigures => w.replies (.ok (w.crm.store.orderFigures stamp.now).toJson)
  | .order part => w.withId part fun id ↦
    if m = .get then (found (okWith Order.toJson) (w.crm.store.order id), w)
    else w.stored nothing (w.crm.store.deleteOrder stamp id)
  | .orderStatus part => w.withId part fun id ↦
    w.withBody orderStatus? r fun status ↦
      w.stored (okWith Order.toJson) (w.crm.store.updateOrderStatus stamp id status)
  | .campaigns =>
    if m = .get then
      w.withQuery (Query.campaigns? r.target.query) fun q ↦
        (found (okWith (Paging.Page.toJson Campaign.toJson)) (w.crm.store.listCampaigns q), w)
    else
      w.withBody Campaign.New.ofJson? r fun a ↦
        w.done (createdWith Campaign.toJson) (w.crm.createCampaign stamp user a)
  | .audiencePreview =>
    w.withBody previewRules? r fun rules ↦
      let customers := w.crm.store.customers.rows
      w.replies (.ok (Audience.preview w.settings.campaigns.samples customers rules).toJson)
  | .campaignFigures => (w.crm.store.campaignFigures?.map (okWith Store.CampaignFigures.toJson), w)
  | .campaign part => w.withId part fun id ↦
    if m = .get then (found (okWith Campaign.toJson) (w.crm.store.campaign id), w)
    else if m = .put then
      w.withBody Campaign.Edit.ofJson? r fun a ↦
        w.done (okWith Campaign.toJson) (w.crm.updateCampaign stamp user id a)
    else w.done nothing (w.crm.deleteCampaign stamp user id)
  | .campaignStart part => w.withId part fun id ↦
    w.done (okWith Campaign.toJson) (w.crm.startCampaign w.settings.campaigns stamp user id)
  | .campaignPause part => w.withId part fun id ↦
    w.done (okWith Campaign.toJson) (w.crm.pauseCampaign stamp user id)
  | .segmentInsights =>
    w.withBody insightRules? r fun rules ↦
      let customers := w.crm.store.customers.rows
      ((Audience.insights? w.settings.campaigns.samples customers rules).map
        (okWith Audience.Insights.toJson), w)
  | .auditLog => w.replies (.ok (.ofList Audit.Entry.toJson w.crm.store.auditLog))
  | _ => w.replies (.bare 404)

/-! ## Requests -/

/-- Answer a request to a resource by a method; a request for headers alone is one for the
resource. -/
def answerAt (w : Service) (stamp : Stamp) (r : Request) (m : Method) (route : Route) : Answer :=
  if route.isOpen then
    if route.methods.contains m then w.answerOpen stamp r route else w.replies (.bare 405)
  else
    match w.authenticate stamp.now r.authorization with
    | (.error reply, w) => w.replies reply
    | (.ok user, w) =>
      if route.methods.contains m then w.answerUser stamp user r m route else w.replies (.bare 405)

/-- Answer a request. Questions about what may be asked are always welcome. -/
def answer (w : Service) (stamp : Stamp) (r : Request) : Answer :=
  match r.method with
  | .options => w.replies (.bare 200)
  | m =>
    match Route.ofTarget? r.target with
    | none => w.replies (.bare 404)
    | some route =>
      if m = .head then
        let (reply, w) := w.answerAt stamp r .get route
        (reply.map Reply.withoutBody, w)
      else w.answerAt stamp r m route

/-- The origin that pages may call from. -/
def allowedOrigin (w : Service) : String := Text.trim w.settings.api.frontendOrigin

/-- Tell from now on that the service is ready. -/
def markReady (w : Service) : Service := { w with isReady := true }

end Service

end Outreach
