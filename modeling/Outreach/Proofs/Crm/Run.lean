import Mathlib.Data.List.Basic
import Outreach.Proofs.Crm.Operations
import Outreach.Store.Customers
import Outreach.Store.Orders

/-!
# Runs

A run is a list of events, each with its stamp: commands of users, and timers that go off. Timers go
off in any order, and the clock may show anything.

Seen from the place where one campaign is kept, an event does one of seven things, which are the
constructors of `Move`. What runs do to single campaigns follows from these alone.
-/

namespace Outreach

open Campaign (Timer)

/-! ## Events -/

/-- What is asked concerning customers and orders. -/
inductive Store.Command where
  | createCustomer (r : Customer.New)
  | updateCustomer (id : Id) (r : Customer.Change)
  | deleteCustomer (id : Id)
  | createOrder (r : Order.New)
  | moveOrder (id : Id) (status : Order.Status)
  | deleteOrder (id : Id)

/-- The store after a command, be it refused or not. -/
def Store.obey (s : Store) (stamp : Stamp) : Store.Command → Store
  | .createCustomer r => (s.createCustomer stamp r).2
  | .updateCustomer id r => (s.updateCustomer stamp id r).2
  | .deleteCustomer id => (s.deleteCustomer id).2
  | .createOrder r => (s.createOrder stamp r).2
  | .moveOrder id status => (s.updateOrderStatus stamp id status).2
  | .deleteOrder id => (s.deleteOrder stamp id).2

namespace Crm

inductive Command where
  | records (c : Store.Command)
  | create (user : User) (r : Campaign.New)
  | update (user : User) (id : Id) (r : Campaign.Edit)
  | delete (user : User) (id : Id)
  | start (user : User) (id : Id)
  | pause (user : User) (id : Id)

inductive Event where
  | command (c : Command)
  | timer (t : Timer)

variable (settings : Settings.Campaigns)

/-- The state after a command, be it refused or not. -/
def obey (w : Crm) (stamp : Stamp) : Command → Crm
  | .records c => { w with store := w.store.obey stamp c }
  | .create user r => (w.createCampaign stamp user r).2
  | .update user id r => (w.updateCampaign stamp user id r).2
  | .delete user id => (w.deleteCampaign stamp user id).2
  | .start user id => (w.startCampaign settings stamp user id).2
  | .pause user id => (w.pauseCampaign stamp user id).2

/-- The state after a timer has gone off, which then is no longer to come. -/
def goOff (w : Crm) (stamp : Stamp) (t : Timer) : Crm where
  store := (completeRun w.store stamp t.campaign t.run).2
  schedule := { w.schedule with pending := w.schedule.pending.erase t }

def after (w : Crm) (stamp : Stamp) : Event → Crm
  | .command c => w.obey settings stamp c
  | .timer t => w.goOff stamp t

def run (w : Crm) (events : List (Stamp × Event)) : Crm :=
  events.foldl (fun w e ↦ w.after settings e.1 e.2) w

variable {settings}

@[simp] theorem run_nil (w : Crm) : w.run settings [] = w := rfl

@[simp] theorem run_cons (w : Crm) (e : Stamp × Event) (events : List (Stamp × Event)) :
    w.run settings (e :: events) = (w.after settings e.1 e.2).run settings events := rfl

theorem run_append (w : Crm) (es fs : List (Stamp × Event)) :
    w.run settings (es ++ fs) = (w.run settings es).run settings fs := List.foldl_append

end Crm

/-! ## Customers and orders -/

namespace Store

variable (s : Store) (stamp : Stamp)

theorem reserveEmail_frame (email : String) (id : Id) :
    (s.reserveEmail email id).2.campaigns = s.campaigns ∧
      (s.reserveEmail email id).2.audit = s.audit := by
  unfold reserveEmail
  split <;> exact ⟨rfl, rfl⟩

/-- What is asked concerning customers and orders touches neither campaigns nor the audit log. -/
theorem obey_frame (c : Store.Command) :
    (s.obey stamp c).campaigns = s.campaigns ∧ (s.obey stamp c).audit = s.audit := by
  cases c with
  | createCustomer r =>
    simp only [obey, createCustomer]
    cases r.check with
    | error f => exact ⟨rfl, rfl⟩
    | ok _ =>
      have frame := s.reserveEmail_frame (r.customer stamp.id stamp.now).email
        (r.customer stamp.id stamp.now).id
      revert frame
      cases s.reserveEmail _ _ with
      | mk result s' => cases result <;> exact id
  | updateCustomer id r =>
    simp only [obey, updateCustomer]
    cases r.check with
    | error f => exact ⟨rfl, rfl⟩
    | ok _ =>
      cases s.customers.find? id with
      | none => exact ⟨rfl, rfl⟩
      | some c =>
        cases he : r.newEmail? c with
        | none => simp [he]
        | some email =>
          have frame := s.reserveEmail_frame email id
          revert frame
          simp only [he]
          cases s.reserveEmail email id with
          | mk result s' => cases result <;> exact fun frame ↦ frame
  | deleteCustomer id =>
    simp only [obey, deleteCustomer]
    cases s.customers.find? id <;> exact ⟨rfl, rfl⟩
  | createOrder r =>
    simp only [obey, createOrder]
    cases r.pricedItems with
    | error f => exact ⟨rfl, rfl⟩
    | ok items =>
      cases s.customers.find? r.customerId with
      | none => exact ⟨rfl, rfl⟩
      | some c =>
        dsimp only
        split <;> exact ⟨rfl, rfl⟩
  | moveOrder id status =>
    simp only [obey, updateOrderStatus]
    cases s.orders.find? id <;> exact ⟨rfl, rfl⟩
  | deleteOrder id =>
    simp only [obey, deleteOrder]
    cases s.orders.find? id with
    | none => exact ⟨rfl, rfl⟩
    | some o => cases h : s.customers.find? o.customerId <;> simp [h]

end Store

/-! ## Moves of one campaign -/

namespace Crm

/-- What an event can do to the campaign with an identity, or to its absence. -/
inductive Move (id : Id) (stamp : Stamp) : Event → Option Campaign → Option Campaign → Prop where
  | stay (e : Event) (x : Option Campaign) : Move id stamp e x x
  | create (user : User) (r : Campaign.New) (size : UInt64) (x : Option Campaign)
      (here : stamp.id = id) :
      Move id stamp (.command (.create user r)) x (some (newCampaign r size user stamp))
  | update (user : User) (r : Campaign.Edit) (size : List Rule → UInt64) {c : Campaign}
      (editable : c.status ≠ .running ∧ c.status ≠ .completed)
      (assignable : ∀ s, r.status = some s → s.isAssignable = true) :
      Move id stamp (.command (.update user id r)) (some c) (some (edited r size c stamp.now))
  | delete (user : User) {c : Campaign} (deletable : c.status ≠ .running) :
      Move id stamp (.command (.delete user id)) (some c) none
  | start (user : User) (size : UInt64) (rates : Campaign.Rates) {c : Campaign}
      {run : Calendar.Instant} (startable : c.status = .draft ∨ c.status = .scheduled)
      (begins : runStart? c.sentAt stamp.now = some run) :
      Move id stamp (.command (.start user id)) (some c)
        (some (started c .running size rates run stamp.now))
  | pause (user : User) {c : Campaign} (running : c.status = .running) :
      Move id stamp (.command (.pause user id)) (some c)
        (some { c with status := .paused, updatedAt := stamp.now })
  | complete (t : Timer) {c : Campaign} (here : t.campaign = id) (current : c.sentAt = some t.run)
      (running : c.status = .running) :
      Move id stamp (.timer t) (some c) (some (completed c stamp.now))

section Slots

variable {settings : Settings.Campaigns} {w : Crm} {stamp : Stamp} {id : Id}

/-- What is put is found under its identity, and the other campaigns stay. -/
theorem find?_put_eq {c : Campaign} {campaigns : Table Campaign.id} {key : Id} (h : c.id = key) :
    (campaigns.put c).find? id = if key = id then some c else campaigns.find? id := by
  rw [Table.find?_put, h]

/-- A record that replaces the one with its identity is a move where it stands, and elsewhere
nothing changes. -/
theorem Move.of_put {e : Event} {c c' : Campaign} {key : Id} (found : w.campaign? key = some c)
    (same : c'.id = c.id) (here : key = id → Move id stamp e (some c) (some c')) :
    Move id stamp e (w.campaign? id) ((w.store.campaigns.put c').find? id) := by
  rw [find?_put_eq (same.trans (id_of_campaign? found))]
  by_cases h : key = id
  · subst h
    rw [if_pos rfl, found]
    exact here rfl
  · rw [if_neg h]
    exact .stay e _

variable (settings w stamp id)

/-- A command moves every campaign in one of the seven ways. -/
theorem move_obey (c : Command) :
    Move id stamp (.command c) (w.campaign? id) ((w.obey settings stamp c).campaign? id) := by
  cases c with
  | records c =>
    simp only [obey, campaign?, (w.store.obey_frame stamp c).1]
    exact .stay _ _
  | create user r =>
    simp only [obey]
    rcases w.createCampaign_cases stamp user r with ⟨f, h⟩ | h
    · rw [h]
      exact .stay _ _
    · rw [h]
      simp only [campaign?, Store.campaigns_filed, Table.find?_put]
      split
      · next here => exact .create user r _ _ here
      · exact .stay _ _
  | update user key r =>
    simp only [obey]
    rcases w.updateCampaign_cases stamp user key r with
      ⟨f, h⟩ | ⟨c, found, editable, assignable, h⟩
    · rw [h]
      exact .stay _ _
    · rw [h]
      exact .of_put found rfl fun here ↦ here ▸ .update user r _ editable assignable
  | delete user key =>
    simp only [obey]
    rcases w.deleteCampaign_cases stamp user key with ⟨f, h⟩ | ⟨c, found, deletable, h⟩
    · rw [h]
      exact .stay _ _
    · rw [h]
      simp only [campaign?, Store.campaigns_filed, Table.find?_erase]
      split
      · next here =>
        subst here
        rw [← campaign?, found]
        exact .delete user deletable
      · exact .stay _ _
  | start user key =>
    simp only [obey]
    rcases w.startCampaign_cases settings stamp user key with
      ⟨f, h⟩ | ⟨c, run, found, startable, begins, h⟩
    · rw [h]
      exact .stay _ _
    · rw [h]
      exact .of_put found rfl fun here ↦ here ▸ .start user _ _ startable begins
  | pause user key =>
    simp only [obey]
    rcases w.pauseCampaign_cases stamp user key with ⟨f, h⟩ | ⟨c, found, running, h⟩
    · rw [h]
      exact .stay _ _
    · rw [h]
      exact .of_put found rfl fun here ↦ here ▸ .pause user running

/-- A timer that goes off moves every campaign in one of the seven ways. -/
theorem move_goOff (t : Timer) :
    Move id stamp (.timer t) (w.campaign? id) ((w.goOff stamp t).campaign? id) := by
  simp only [goOff, campaign?]
  rcases completeRun_cases stamp t.campaign w.store t.run with
    ⟨h, -⟩ | ⟨c, found, current, running, h⟩
  · rw [h]
    exact .stay _ _
  · rw [h]
    exact .of_put found rfl fun here ↦ .complete t here current running

/-- An event moves every campaign in one of the seven ways. -/
theorem move_after (e : Event) :
    Move id stamp e (w.campaign? id) ((w.after settings stamp e).campaign? id) :=
  match e with
  | .command c => move_obey settings w stamp id c
  | .timer t => move_goOff w stamp id t

end Slots

/-- What every move keeps, a run keeps. -/
theorem run_induction {settings : Settings.Campaigns} {id : Id} {P : Option Campaign → Prop}
    {events : List (Stamp × Event)}
    (keep : ∀ stamp e x y, (stamp, e) ∈ events → Move id stamp e x y → P x → P y) (w : Crm)
    (begins : P (w.campaign? id)) : P ((w.run settings events).campaign? id) := by
  induction events generalizing w with
  | nil => exact begins
  | cons e events ih =>
    refine ih (fun stamp f x y hf ↦ keep stamp f x y (List.mem_cons_of_mem _ hf)) _ ?_
    exact keep e.1 e.2 _ _ List.mem_cons_self (move_after settings w e.1 id e.2) begins

/-! ## New identities -/

/-- The identity of the campaign that an event is to make. -/
def madeBy : Stamp × Event → Option Id
  | (stamp, .command (.create _ _)) => some stamp.id
  | _ => none

/-- The identities of the campaigns that a run is to make. -/
def made (events : List (Stamp × Event)) : List Id := events.filterMap madeBy

/-- The identities that a run gives to campaigns are those of no campaign before. -/
structure Fresh (w : Crm) (events : List (Stamp × Event)) : Prop where
  nodup : (made events).Nodup
  /-- None of them is that of a campaign that is there at the beginning. -/
  unknown : ∀ id ∈ made events, w.campaign? id = none

section Fresh

variable {settings : Settings.Campaigns} {w : Crm} {id : Id} {es fs : List (Stamp × Event)}

theorem made_append : made (es ++ fs) = made es ++ made fs := List.filterMap_append

/-- What a run does not make, its last part does not make. -/
theorem notMem_made_right (h : id ∉ made (es ++ fs)) : id ∉ made fs := by
  rw [made_append] at h
  exact fun hid ↦ h (List.mem_append_right _ hid)

theorem notMem_made_left (h : id ∉ made (es ++ fs)) : id ∉ made es := by
  rw [made_append] at h
  exact fun hid ↦ h (List.mem_append_left _ hid)

theorem notMem_made_tail {e : Stamp × Event} (h : id ∉ made (e :: es)) : id ∉ made es := by
  rw [← List.singleton_append] at h
  exact notMem_made_right h

/-- A campaign that is not there is not there after an event either, unless the event makes it. -/
theorem Move.eq_none {stamp : Stamp} {e : Event} {y : Option Campaign}
    (h : Move id stamp e none y) (other : madeBy (stamp, e) ≠ some id) : y = none := by
  cases h with
  | stay => rfl
  | create user r size _ here => exact absurd (congrArg some here) other

/-- Where no campaign is and none is made, there is none later. -/
theorem campaign?_run_eq_none (absent : w.campaign? id = none) (other : id ∉ made es) :
    (w.run settings es).campaign? id = none := by
  refine run_induction (P := (· = none)) (fun stamp e x y he move absent ↦ ?_) w absent
  subst absent
  exact move.eq_none fun same ↦ other (List.mem_filterMap.mpr ⟨_, he, same⟩)

theorem Fresh.left (h : Fresh w (es ++ fs)) : Fresh w es := by
  obtain ⟨nodup, unknown⟩ := h
  rw [made_append] at nodup unknown
  exact ⟨(List.nodup_append.mp nodup).1, fun id hid ↦ unknown id (List.mem_append_left _ hid)⟩

/-- Halfway through a run, the identities to come are still new. -/
theorem Fresh.right (h : Fresh w (es ++ fs)) : Fresh (w.run settings es) fs := by
  obtain ⟨nodup, unknown⟩ := h
  rw [made_append] at nodup unknown
  obtain ⟨-, nodup, disjoint⟩ := List.nodup_append.mp nodup
  refine ⟨nodup, fun id hid ↦ campaign?_run_eq_none ?_ fun before ↦ ?_⟩
  · exact unknown id (List.mem_append_right _ hid)
  · exact disjoint id before id hid rfl

theorem Fresh.tail {e : Stamp × Event} (h : Fresh w (e :: es)) :
    Fresh (w.after settings e.1 e.2) es := by
  rw [← List.singleton_append] at h
  exact h.right

/-- A campaign that is there is not made again. -/
theorem Fresh.notMem_made {c : Campaign} (h : Fresh w es) (known : w.campaign? id = some c) :
    id ∉ made es := by
  intro hid
  rw [h.unknown id hid] at known
  cases known

end Fresh

/-! ## A small run -/

/-- The stamp that goes with a number of seconds. -/
def tick (n : Nat) : Stamp :=
  ⟨(Calendar.Instant.ofParts? n 0).getD .epoch, ⟨BitVec.ofNat 128 n⟩, ⟨BitVec.ofNat 128 n⟩, ""⟩

def someone : User := ⟨⟨0⟩, "Admin User", "admin@xeno-crm.com", "admin"⟩

def newcomer (name email : String) : Customer.New :=
  ⟨name, email, none, 0.0, 0, none, none, .active, [], .empty, .usual⟩

def offer : Campaign.New :=
  ⟨"Festive Offers", none, .email, ⟨some "Hi", "20% off this week", none⟩, [], none⟩

/-- The edit by which a campaign gets a status. -/
def give (status : Campaign.Status) : Campaign.Edit :=
  ⟨none, none, none, none, none, none, some status⟩

/-- A campaign is made and started, its run is broken off, and it is scheduled anew. -/
def brokenRun : List (Stamp × Event) :=
  [(tick 1, .command (.create someone offer)), (tick 2, .command (.start someone ⟨1⟩)),
    (tick 3, .command (.pause someone ⟨1⟩)),
    (tick 4, .command (.update someone ⟨1⟩ (give .scheduled)))]

/-- After its run was broken off, the campaign is started again; then the timers of both runs go
off. -/
def twoRuns : List (Stamp × Event) :=
  brokenRun ++ [(tick 5, .command (.start someone ⟨1⟩)), (tick 6, .timer ⟨⟨1⟩, (tick 2).now, 5000⟩),
    (tick 7, .timer ⟨⟨1⟩, (tick 5).now, 5000⟩)]

theorem fresh_twoRuns : Fresh .empty twoRuns := ⟨by decide, fun _ _ ↦ rfl⟩

end Crm

end Outreach
