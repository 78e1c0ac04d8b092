import Outreach.Campaign.Json
import Outreach.Text.Blank

/-!
# Faults

Why an operation is refused. A fault is a cause; its kind and its wording follow from it. A report
is what is passed on: a kind and the wording that belongs to it.

Two faults are not reported, since neither the program nor what it keeps survives them: a time behind
the last instant, and a count that has no room for what is added.
-/

namespace Outreach

/-- A kind of record that may be missing. -/
inductive Fault.Resource where
  | customer
  | order
  | campaign
deriving DecidableEq, Repr

/-- The cause of a refusal. -/
inductive Fault where
  | missing (what : Fault.Resource)
  | emailTaken
  | pageBelowOne
  /-- A page holds one to a hundred records. -/
  | limitOutOfRange
  | customerNameShort
  | emailMalformed
  /-- What has been spent is negative or not finite. -/
  | spendingNegative
  | noItems
  | totalNegative
  | productBlank
  | quantityZero
  | priceNegative
  /-- The stated total of an order is not the sum of its items. -/
  | totalMismatch
  | campaignNameShort
  | contentBlank
  /-- An edit must not give a campaign this status. -/
  | statusNotAssignable (status : Campaign.Status)
  /-- The body of a request is not the record that is asked for. -/
  | bodyUnreadable
  | cannotStart
  | cannotPause
  | cannotComplete (status : Campaign.Status)
  | cannotEdit
  | cannotDelete
  | badCredentials
  | badToken
  /-- The result would lie behind the last instant. -/
  | clockEnded
  /-- A count has no room for the sum. -/
  | countFull
deriving DecidableEq, Repr

/-- What sort of fault a report is about. -/
inductive Report.Kind where
  | configuration
  | missing
  | conflict
  | invalidState
  | validation
  | unauthorized
  | serialization
  | internal
deriving DecidableEq, Repr

/-- A fault as it is passed on. -/
structure Report where
  kind : Report.Kind
  /-- What it says; for a missing record, what is missing. -/
  detail : String
deriving DecidableEq, Repr

/-- The wording of a report on its own. -/
def Report.message (r : Report) : String :=
  match r.kind with
  | .configuration => "Configuration error: " ++ r.detail
  | .missing => r.detail ++ " not found"
  | .conflict => r.detail
  | .invalidState => r.detail
  | .validation => "Validation failed: " ++ r.detail
  | .unauthorized => "Unauthorized: " ++ r.detail
  | .serialization => "Serialization error: " ++ r.detail
  | .internal => "Internal error: " ++ r.detail

namespace Fault

def Resource.name : Resource → String
  | .customer => "Customer"
  | .order => "Order"
  | .campaign => "Campaign"

/-- What sort of fault it is; none that is reported if the program does not survive it. -/
def kind? : Fault → Option Report.Kind
  | .clockEnded | .countFull => none
  | .missing _ => some .missing
  | .emailTaken => some .conflict
  | .cannotStart | .cannotPause | .cannotComplete _ | .cannotEdit | .cannotDelete =>
    some .invalidState
  | .badCredentials | .badToken => some .unauthorized
  | _ => some .validation

/-- What the report of a fault says, or the last words of the program. -/
def detail : Fault → String
  | .missing what => what.name
  | .emailTaken => "Customer with this email already exists"
  | .pageBelowOne => "Page must be a positive integer"
  | .limitOutOfRange => "Limit must be between 1 and 100"
  | .customerNameShort => "Name must be at least 2 characters"
  | .emailMalformed => "Please provide a valid email"
  | .spendingNegative => "Total spending must be a non-negative number"
  | .noItems => "At least one item is required"
  | .totalNegative => "Total amount must be non-negative"
  | .productBlank => "Product name is required"
  | .quantityZero => "Quantity must be at least 1"
  | .priceNegative => "Price must be non-negative"
  | .totalMismatch => "Total amount does not match sum of items"
  | .campaignNameShort => "Campaign name must be at least 2 characters"
  | .contentBlank => "Message content is required"
  | .statusNotAssignable status =>
    "Status can only be set to draft, scheduled or cancelled, not " ++ status.name
  | .bodyUnreadable => "The request body could not be read"
  | .cannotStart => "Campaign cannot be started"
  | .cannotPause => "Only running campaigns can be paused"
  | .cannotComplete status => "Cannot complete a " ++ status.name ++ " campaign"
  | .cannotEdit => "Cannot edit running or completed campaigns"
  | .cannotDelete => "Cannot delete running campaigns"
  | .badCredentials => "Invalid email or password"
  | .badToken => "Invalid or expired bearer token"
  | .clockEnded => "The date is out of range"
  | .countFull => "The count is out of range"

/-- The report of a fault that the program survives. -/
def report? (f : Fault) : Option Report := f.kind?.map (⟨·, f.detail⟩)

/-- A name has two characters or more, white space around it aside; a shorter one is the fault. -/
def checkName (short : Fault) (name : String) : Except Fault Unit :=
  if (Text.trimChars name.toList).length < 2 then .error short else .ok ()

end Fault

end Outreach
