import Outreach.Http.Request
import Outreach.Id

/-!
# Routes

Which resource a path names. A part of a path that stands for an identity is kept as it is written;
it must not be empty, and a fixed part takes precedence over it.
-/

namespace Outreach.Http

inductive Route where
  | login
  | me
  | logout
  | customers
  | customerFigures
  | customer (id : String)
  | orders
  | orderFigures
  | order (id : String)
  | orderStatus (id : String)
  | campaigns
  | audiencePreview
  | campaignFigures
  | campaign (id : String)
  | campaignStart (id : String)
  | campaignPause (id : String)
  | segmentInsights
  | auditLog
  | health
  | ready
  | live
deriving DecidableEq, Repr

namespace Route

/-- A resource with an identity, which is not empty. -/
def withId (f : String → Route) (id : String) : Option Route := if id = "" then none else some (f id)

/-- The resource that the parts of a path name. -/
def ofSegments? : List String → Option Route
  | ["health"] => some .health
  | ["ready"] => some .ready
  | ["live"] => some .live
  | ["api", "auth", "login"] => some .login
  | ["api", "auth", "me"] => some .me
  | ["api", "auth", "logout"] => some .logout
  | ["api", "customers"] => some .customers
  | ["api", "customers", "analytics", "overview"] => some .customerFigures
  | ["api", "customers", id] => withId .customer id
  | ["api", "orders"] => some .orders
  | ["api", "orders", "analytics", "overview"] => some .orderFigures
  | ["api", "orders", id] => withId .order id
  | ["api", "orders", id, "status"] => withId .orderStatus id
  | ["api", "campaigns"] => some .campaigns
  | ["api", "campaigns", "preview-audience"] => some .audiencePreview
  | ["api", "campaigns", "analytics", "overview"] => some .campaignFigures
  | ["api", "campaigns", id] => withId .campaign id
  | ["api", "campaigns", id, "start"] => withId .campaignStart id
  | ["api", "campaigns", id, "pause"] => withId .campaignPause id
  | ["api", "segments", "insights"] => some .segmentInsights
  | ["api", "audit-log"] => some .auditLog
  | _ => none

def ofTarget? (t : Target) : Option Route := ofSegments? t.segments

/-- The resources that are open to everyone; all others are for users who have logged in. -/
def isOpen : Route → Bool
  | .login | .health | .ready | .live => true
  | _ => false

def methods : Route → List Method
  | .login | .logout | .audiencePreview | .segmentInsights => [.post]
  | .campaignStart _ | .campaignPause _ => [.post]
  | .customers | .orders | .campaigns => [.get, .post]
  | .customer _ | .campaign _ => [.get, .put, .delete]
  | .order _ => [.get, .delete]
  | .orderStatus _ => [.patch]
  | _ => [.get]

/-- The identity that a part of a path stands for. -/
def id? (part : String) : Option Id :=
  (Text.ofBytes? (Text.percentDecoded part.toList)).bind Id.ofChars?

end Route

end Outreach.Http
