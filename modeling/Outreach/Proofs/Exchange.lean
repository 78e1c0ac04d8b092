import Outreach.Campaign.Json
import Outreach.Order.Json
import Outreach.Proofs.Calendar.RoundTrip
import Outreach.Proofs.Identity
import Outreach.Proofs.Json.Fields

/-!
# Records exchanged

A customer, an order or a campaign that has been written as a value is read back as it was, with
everything nested in it. What cannot be exchanged is a number that is not finite, which is written as
nothing, and an unrecognized operator whose text is that of a recognized one, which no reading makes.
-/

namespace Outreach

open Calendar Json Json.Fields

/-! ## Single values -/

@[simp] theorem Id.ofJson?_toJson (id : Id) : ofJson? id.toJson = some id := by
  rw [ofJson?, toJson, text?, Option.bind_some, ofText?_text]

@[simp] theorem Calendar.Instant.ofJson?_toJson (t : Instant) : ofJson? t.toJson = some t := by
  rw [ofJson?, toJson, text?, Option.bind_some, ofText?_text]

/-- An instant that may be missing is read as it was written. -/
theorem Calendar.Instant.optional?_ofOption (t : Option Instant) :
    optional? ofJson? (ofOption toJson t) = some t :=
  Json.optional?_ofOption t ofJson?_toJson fun _ ↦ nofun

/-! ## Customers -/

theorem Customer.Status.ofJson?_toJson (s : Status) : ofJson? s.toJson = some s := ofName?_name s

theorem Address.ofJson?_toJson (a : Address) : ofJson? a.toJson = some a := by
  refine record?_object ?_
  refine (optionalD_takes (by rfl) (optional?_ofText? a.street)).bind ?_
  refine (optionalD_takes (by rfl) (optional?_ofText? a.city)).bind ?_
  refine (optionalD_takes (by rfl) (optional?_ofText? a.state)).bind ?_
  refine (optionalD_takes (by rfl) (optional?_ofText? a.zipCode)).bind ?_
  exact (optionalD_takes (by rfl) (optional?_ofText? a.country)).map _

theorem Preferences.ofJson?_toJson (p : Preferences) : ofJson? p.toJson = some p := by
  refine record?_object ?_
  refine (withDefault_takes (by rfl) (bool?_bool p.emailMarketing)).bind ?_
  exact (withDefault_takes (by rfl) (bool?_bool p.smsMarketing)).map _

/-- What the customer has spent is a number. -/
def Customer.IsFinite (c : Customer) : Prop := c.totalSpending.isFinite = true

theorem Customer.ofJson?_toJson {c : Customer} (finite : c.IsFinite) :
    ofJson? c.toJson = some c := by
  refine record?_object ?_
  refine (required_takes (by rfl) (Id.ofJson?_toJson c.id)).bind ?_
  refine (required_takes (by rfl) (text?_text c.name)).bind ?_
  refine (required_takes (by rfl) (text?_text c.email)).bind ?_
  refine (optionalD_takes (by rfl) (optional?_ofText? c.phone)).bind ?_
  refine (withDefault_takes (by rfl) (float?_ofFloat finite)).bind ?_
  refine (withDefault_takes (by rfl) (count?_ofCount c.visits)).bind ?_
  refine (optionalD_takes (by rfl) (Instant.optional?_ofOption c.lastPurchaseDate)).bind ?_
  refine (required_takes (by rfl) (Instant.ofJson?_toJson c.registrationDate)).bind ?_
  refine (withDefault_takes (by rfl) (Status.ofJson?_toJson c.status)).bind ?_
  refine (withDefault_takes (by rfl) (list?_ofList fun s _ ↦ text?_text s)).bind ?_
  refine (withDefault_takes (by rfl) (Address.ofJson?_toJson c.address)).bind ?_
  refine (withDefault_takes (by rfl) (Preferences.ofJson?_toJson c.preferences)).bind ?_
  refine (required_takes (by rfl) (Instant.ofJson?_toJson c.createdAt)).bind ?_
  exact (required_takes (by rfl) (Instant.ofJson?_toJson c.updatedAt)).map _

/-! ## Orders -/

namespace Order

theorem Status.ofJson?_toJson (s : Status) : ofJson? s.toJson = some s := ofName?_name s

theorem Payment.ofJson?_toJson (p : Payment) : ofJson? p.toJson = some p := ofName?_name p

theorem Method.ofJson?_toJson (m : Method) : ofJson? m.toJson = some m := ofName?_name m

/-- A quantity is small enough to be written as a size. -/
theorem quantity?_ofSize (q : UInt32) : quantity? (ofSize q.toNat) = some q := by
  have small : q.toNat ≤ 0xffffffff := Nat.le_of_lt_succ q.toNat_lt
  have count : countUpTo? 0xffffffff (ofSize q.toNat) = some q.toNat := by
    simp [countUpTo?, count?, ofSize, guard, small]
  rw [quantity?, count, Option.map_some, Nat.toUInt32, UInt32.ofNat_toNat]

/-- The prices of a line are numbers. -/
def Item.IsFinite (i : Item) : Prop := i.price.isFinite = true ∧ i.total.isFinite = true

theorem Item.ofJson?_toJson {i : Item} (finite : i.IsFinite) : ofJson? i.toJson = some i := by
  refine record?_object ?_
  refine (required_takes (by rfl) (text?_text i.productName)).bind ?_
  refine (required_takes (by rfl) (quantity?_ofSize i.quantity)).bind ?_
  refine (required_takes (by rfl) (float?_ofFloat finite.1)).bind ?_
  exact (required_takes (by rfl) (float?_ofFloat finite.2)).map _

/-- What the order and its lines cost are numbers. -/
def IsFinite (o : Order) : Prop := o.totalAmount.isFinite = true ∧ ∀ i ∈ o.items, i.IsFinite

theorem ofJson?_toJson {o : Order} (finite : o.IsFinite) : ofJson? o.toJson = some o := by
  have items := list?_ofList fun i h ↦ Item.ofJson?_toJson (finite.2 i h)
  have address := optional?_ofOption o.shippingAddress Address.ofJson?_toJson fun _ ↦ nofun
  refine record?_object ?_
  refine (required_takes (by rfl) (Id.ofJson?_toJson o.id)).bind ?_
  refine (required_takes (by rfl) (Id.ofJson?_toJson o.customerId)).bind ?_
  refine (required_takes (by rfl) (text?_text o.orderNumber)).bind ?_
  refine (required_takes (by rfl) items).bind ?_
  refine (required_takes (by rfl) (float?_ofFloat finite.1)).bind ?_
  refine (required_takes (by rfl) (Status.ofJson?_toJson o.status)).bind ?_
  refine (required_takes (by rfl) (Payment.ofJson?_toJson o.paymentStatus)).bind ?_
  refine (required_takes (by rfl) (Method.ofJson?_toJson o.paymentMethod)).bind ?_
  refine (optional_takes (by rfl) address).bind ?_
  refine (required_takes (by rfl) (Instant.ofJson?_toJson o.orderDate)).bind ?_
  refine (optional_takes (by rfl) (Instant.optional?_ofOption o.deliveryDate)).bind ?_
  refine (required_takes (by rfl) (Instant.ofJson?_toJson o.createdAt)).bind ?_
  exact (required_takes (by rfl) (Instant.ofJson?_toJson o.updatedAt)).map _

end Order

/-! ## Rules -/

namespace Rule

/-- An operator is what some text is read as. -/
def Operator.IsRead (o : Operator) : Prop := ∃ s, ofText s = o

/-- An operator that has been read is read again from its own text. -/
theorem Operator.ofText_text {o : Operator} (read : o.IsRead) : ofText o.text = o := by
  obtain ⟨s, read⟩ := read
  cases o with
  | unrecognized raw =>
    have kept : s = raw := by
      unfold ofText at read
      -- The other texts are read as operators that compare something.
      split at read <;> cases read
      rfl
    rw [text, ← kept, read, kept]
  | _ => rfl

def Value.IsFinite : Value → Prop
  | .number x => x.isFinite = true
  | .text _ => True

/-- A text stays a text, be it that of a number. -/
theorem Value.ofJson?_toJson {v : Value} (finite : v.IsFinite) : ofJson? v.toJson = some v := by
  cases v with
  | text s => rfl
  | number x =>
    have number : toJson (.number x) = .number (.real x) := if_pos finite
    rw [number]
    rfl

/-- The rule has been read, or might have been. -/
structure IsRead (r : Rule) : Prop where
  operator : r.operator.IsRead
  value : r.value.IsFinite

theorem ofJson?_toJson {r : Rule} (read : r.IsRead) : ofJson? r.toJson = some r := by
  have operator := congrArg some (Operator.ofText_text read.operator)
  have logic := congrArg some (Logic.ofText_text r.logic)
  refine record?_object ?_
  refine (required_takes (by rfl) (text?_text r.field)).bind ?_
  refine (required_takes (by rfl) operator).bind ?_
  refine (required_takes (by rfl) (Value.ofJson?_toJson read.value)).bind ?_
  exact (withDefault_takes (by rfl) logic).map _

end Rule

/-! ## Campaigns -/

namespace Campaign

theorem Status.ofJson?_toJson (s : Status) : ofJson? s.toJson = some s := ofName?_name s

theorem Channel.ofJson?_toJson (c : Channel) : ofJson? c.toJson = some c := ofName?_name c

theorem Message.ofJson?_toJson (m : Message) : ofJson? m.toJson = some m := by
  refine record?_object ?_
  refine (optionalD_takes (by rfl) (optional?_ofText? m.subject)).bind ?_
  refine (required_takes (by rfl) (text?_text m.content)).bind ?_
  exact (optionalD_takes (by rfl) (optional?_ofText? m.template)).map _

theorem Stats.ofJson?_toJson (s : Stats) : ofJson? s.toJson = some s := by
  refine record?_object ?_
  refine (required_takes (by rfl) (count?_ofCount s.sent)).bind ?_
  refine (required_takes (by rfl) (count?_ofCount s.delivered)).bind ?_
  refine (required_takes (by rfl) (count?_ofCount s.opened)).bind ?_
  refine (required_takes (by rfl) (count?_ofCount s.clicked)).bind ?_
  refine (required_takes (by rfl) (count?_ofCount s.failed)).bind ?_
  exact (required_takes (by rfl) (count?_ofCount s.unsubscribed)).map _

/-- The rules of a campaign have been read, or might have been. -/
def IsRead (c : Campaign) : Prop := ∀ r ∈ c.audienceRules, r.IsRead

theorem ofJson?_toJson {c : Campaign} (read : c.IsRead) : ofJson? c.toJson = some c := by
  have rules := list?_ofList fun r h ↦ Rule.ofJson?_toJson (read r h)
  refine record?_object ?_
  refine (required_takes (by rfl) (Id.ofJson?_toJson c.id)).bind ?_
  refine (required_takes (by rfl) (text?_text c.name)).bind ?_
  refine (optional_takes (by rfl) (optional?_ofText? c.description)).bind ?_
  refine (required_takes (by rfl) (Channel.ofJson?_toJson c.channel)).bind ?_
  refine (required_takes (by rfl) (Message.ofJson?_toJson c.message)).bind ?_
  refine (required_takes (by rfl) rules).bind ?_
  refine (required_takes (by rfl) (count?_ofCount c.audienceSize)).bind ?_
  refine (required_takes (by rfl) (Status.ofJson?_toJson c.status)).bind ?_
  refine (optional_takes (by rfl) (Instant.optional?_ofOption c.scheduledAt)).bind ?_
  refine (optional_takes (by rfl) (Instant.optional?_ofOption c.sentAt)).bind ?_
  refine (optional_takes (by rfl) (Instant.optional?_ofOption c.completedAt)).bind ?_
  refine (required_takes (by rfl) (Stats.ofJson?_toJson c.stats)).bind ?_
  refine (required_takes (by rfl) (Id.ofJson?_toJson c.createdBy)).bind ?_
  refine (required_takes (by rfl) (Instant.ofJson?_toJson c.createdAt)).bind ?_
  exact (required_takes (by rfl) (Instant.ofJson?_toJson c.updatedAt)).map _

end Campaign

/-! ## Records -/

namespace Json

variable {α : Type} {p : α → Prop} {f : α → Json} {read : Json → Option α}

/-- Records that are read back have different values if they are different. -/
theorem eq_of_read (back : ∀ a, p a → read (f a) = some a) {a b : α} (ha : p a) (hb : p b)
    (same : f a = f b) : a = b := by
  have both : some a = some b := by rw [← back a ha, ← back b hb, same]
  exact Option.some.inj both

end Json

/-- Records are read back from their values, and no two of them have the same value. -/
theorem records_exchanged :
    (∀ c : Customer, c.IsFinite → Customer.ofJson? c.toJson = some c) ∧
    (∀ o : Order, o.IsFinite → Order.ofJson? o.toJson = some o) ∧
    (∀ c : Campaign, c.IsRead → Campaign.ofJson? c.toJson = some c) ∧
    (∀ c d : Customer, c.IsFinite → d.IsFinite → c.toJson = d.toJson → c = d) ∧
    (∀ o q : Order, o.IsFinite → q.IsFinite → o.toJson = q.toJson → o = q) ∧
    (∀ c d : Campaign, c.IsRead → d.IsRead → c.toJson = d.toJson → c = d) :=
  ⟨fun _ ↦ Customer.ofJson?_toJson, fun _ ↦ Order.ofJson?_toJson, fun _ ↦ Campaign.ofJson?_toJson,
    fun _ _ ↦ Json.eq_of_read fun _ ↦ Customer.ofJson?_toJson,
    fun _ _ ↦ Json.eq_of_read fun _ ↦ Order.ofJson?_toJson,
    fun _ _ ↦ Json.eq_of_read fun _ ↦ Campaign.ofJson?_toJson⟩

/-- The middle of the leap second at the end of 2016. -/
def newYear : Instant := ⟨1483228799, 1500000000, by decide, by decide, by decide⟩

/-- A customer with a few things missing. -/
def member : Customer where
  id := ⟨0x0000000012340000abcd000000000001⟩
  name := "Zoë \"Z\""
  email := "zoe@example.com"
  phone := none
  totalSpending := 0.1
  visits := 0xffffffffffffffff
  lastPurchaseDate := some newYear
  registrationDate := Instant.epoch
  status := .blocked
  tags := ["", "null", ""]
  address := { Address.empty with city := some "" }
  preferences := ⟨false, true⟩
  createdAt := newYear
  updatedAt := newYear

/-- An order of two lines that goes nowhere yet. -/
def parcel (address : Option Address) : Order where
  id := ⟨1⟩
  customerId := member.id
  orderNumber := "ORD-1"
  items := [⟨"pen", 3, 1.5, 4.5⟩, ⟨"pen", 0xffffffff, 0, 0⟩]
  totalAmount := 4.5
  status := .refunded
  paymentStatus := .failed
  paymentMethod := .cashOnDelivery
  shippingAddress := address
  orderDate := newYear
  deliveryDate := none
  createdAt := newYear
  updatedAt := newYear

/-- A campaign with a rule that says nothing and a rule with a given value. -/
def invitation (value : Rule.Value) : Campaign where
  id := ⟨2⟩
  name := "Ball"
  description := none
  channel := .push
  message := ⟨some "Come", "Come to the ball", none⟩
  audienceRules := [⟨"city", .unrecognized "=>", .text "", .or⟩, ⟨"visits", .atLeast, value, .and⟩]
  audienceSize := 1
  status := .paused
  scheduledAt := some newYear
  sentAt := none
  completedAt := none
  stats := .zero
  createdBy := ⟨3⟩
  createdAt := newYear
  updatedAt := newYear

/-- An address with nothing in it is not a missing address, and a text is not the number that it
spells. -/
theorem records_exchanged_parcel :
    Customer.ofJson? member.toJson = some member ∧
    Order.ofJson? (parcel none).toJson = some (parcel none) ∧
    Campaign.ofJson? (invitation (.text "12")).toJson = some (invitation (.text "12")) ∧
    (parcel none).toJson ≠ (parcel (some .empty)).toJson ∧
    (invitation (.text "12")).toJson ≠ (invitation (.number 12)).toJson := by
  have finite (address) : (parcel address).IsFinite := by
    refine ⟨show Float.isFinite 4.5 = true by decide +kernel, fun i hi ↦ ?_⟩
    simp only [parcel, List.mem_cons, List.not_mem_nil, or_false] at hi
    rcases hi with rfl | rfl <;> constructor <;> decide +kernel
  have read (value : Rule.Value) (h : value.IsFinite) : (invitation value).IsRead := by
    intro r hr
    simp only [invitation, List.mem_cons, List.not_mem_nil, or_false] at hr
    rcases hr with rfl | rfl
    · exact ⟨⟨"=>", rfl⟩, trivial⟩
    · exact ⟨⟨">=", rfl⟩, h⟩
  have text := read (.text "12") trivial
  have number := read (.number 12) (show Float.isFinite 12 = true by decide +kernel)
  obtain ⟨customers, orders, campaigns, -, orders_ne, campaigns_ne⟩ := records_exchanged
  refine ⟨customers member (show Float.isFinite 0.1 = true by decide +kernel),
    orders _ (finite none), campaigns _ text, fun same ↦ ?_, fun same ↦ ?_⟩
  · have : (parcel none).shippingAddress = some .empty :=
      congrArg Order.shippingAddress (orders_ne _ _ (finite _) (finite _) same)
    cases this
  · have : (invitation (.text "12")).audienceRules = (invitation (.number 12)).audienceRules :=
      congrArg Campaign.audienceRules (campaigns_ne _ _ text number same)
    simp [invitation] at this

end Outreach
