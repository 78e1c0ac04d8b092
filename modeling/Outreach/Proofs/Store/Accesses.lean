import Outreach.Proofs.Store.Operations

/-!
# Requests in single accesses

A request that concerns a customer reaches the store more than once: an address for mail is taken in
one access, the record is read, written or removed in another, and an address is given back in a
third. Each access is carried out as a whole, but other requests may have theirs in between. Here the
requests are taken apart into their accesses, and any number of them share one store, each as far as
it has got.

A request whose accesses follow each other without a gap does what the operation on the store does
(`run_alone`).
-/

namespace Outreach

open Calendar

/-- The record after a change, with an address for mail that was settled before the record was looked
up. -/
def Customer.Change.write (r : Customer.Change) (c : Customer) (email : String) (now : Instant) :
    Customer :=
  { r.apply c now with email }

@[simp] theorem Customer.Change.id_write (r : Customer.Change) (c : Customer) (email : String)
    (now : Instant) : (r.write c email now).id = c.id := rfl

theorem Customer.Change.write_of_stays {r : Customer.Change} {c : Customer}
    (h : r.newEmail? c = none) (now : Instant) : r.write c c.email now = r.apply c now := by
  simp [write, apply, h]

theorem Customer.Change.write_of_moves {r : Customer.Change} {c : Customer} {email : String}
    (h : r.newEmail? c = some email) (now : Instant) : r.write c email now = r.apply c now := by
  simp [write, apply, h]

namespace Store

/-- A request that concerns a customer. -/
inductive Request where
  /-- A customer is to be made, with an identity that nothing has yet. -/
  | create (id : Id) (r : Customer.New)
  | update (id : Id) (r : Customer.Change)
  | delete (id : Id)

/-- What is answered to a request: the customer as made or changed, nothing if one was removed, or why
the request was refused. -/
abbrev Answer := Except Fault (Option Customer)

/-- A request as far as it has got. -/
inductive Task where
  | waiting (q : Request)
  /-- The address of a customer to be made has been taken; the record is to be added. -/
  | adding (id : Id) (r : Customer.New)
  /-- The record has been read and keeps its address; it is to be written. -/
  | changing (id : Id) (r : Customer.Change)
  /-- The record has been read with the old address; the new one is to be taken. -/
  | moving (id : Id) (r : Customer.Change) (old new : String)
  /-- The new address has been taken; the record is to be written. -/
  | readdressing (id : Id) (r : Customer.Change) (old new : String)
  | releasing (id : Id) (email : String) (answer : Answer)
  | finished (answer : Answer)

namespace Task

/-- The next access of a request, and the store after it. -/
def step (now : Instant) (s : Store) : Task → Task × Store
  | .waiting (.create id r) =>
    match r.check with
    | .error f => (.finished (.error f), s)
    | .ok _ =>
      match s.reserveEmail (Customer.normalizeEmail r.email) id with
      | (.error f, s) => (.finished (.error f), s)
      | (.ok _, s) => (.adding id r, s)
  | .waiting (.update id r) =>
    match r.check with
    | .error f => (.finished (.error f), s)
    | .ok _ =>
      match s.customers.find? id with
      | none => (.finished (.error (.missing .customer)), s)
      | some c =>
        match r.newEmail? c with
        | none => (.changing id r, s)
        | some new => (.moving id r c.email new, s)
  | .waiting (.delete id) =>
    match s.customers.find? id with
    | none => (.finished (.error (.missing .customer)), s)
    | some c => (.releasing id c.email (.ok none), { s with customers := s.customers.erase id })
  | .adding id r =>
    let c := r.customer id now
    (.finished (.ok (some c)), { s with customers := s.customers.put c })
  | .changing id r =>
    match s.customers.find? id with
    | none => (.finished (.error (.missing .customer)), s)
    | some c =>
      let changed := r.write c c.email now
      (.finished (.ok (some changed)), { s with customers := s.customers.put changed })
  | .moving id r old new =>
    match s.reserveEmail new id with
    | (.error f, s) => (.finished (.error f), s)
    | (.ok _, s) => (.readdressing id r old new, s)
  | .readdressing id r old new =>
    match s.customers.find? id with
    -- the customer has been removed meanwhile, so the new address goes back
    | none => (.releasing id new (.error (.missing .customer)), s)
    | some c =>
      let changed := r.write c new now
      (.releasing id old (.ok (some changed)), { s with customers := s.customers.put changed })
  | .releasing id email answer => (.finished answer, s.releaseEmail email id)
  | .finished answer => (.finished answer, s)

/-- The request has been begun and not been answered. -/
def underWay : Task → Bool
  | .waiting _ | .finished _ => false
  | _ => true

end Task

/-! ## Several requests -/

/-- A store and the requests that reach it. -/
structure Traffic where
  store : Store
  /-- The requests, each as far as it has got. -/
  tasks : List Task

structure Access where
  /-- The place of the request among the requests. -/
  task : Nat
  now : Instant

namespace Traffic

/-- A store that some requests are going to reach. -/
def opened (s : Store) (requests : List Request) : Traffic := ⟨s, requests.map .waiting⟩

def step (t : Traffic) (a : Access) : Traffic :=
  match t.tasks[a.task]? with
  | none => t
  | some task =>
    let (task', s) := task.step a.now t.store
    ⟨s, t.tasks.set a.task task'⟩

def run (t : Traffic) (accesses : List Access) : Traffic := accesses.foldl step t

def Idle (t : Traffic) : Prop := ∀ task ∈ t.tasks, task.underWay = false

@[simp] theorem run_nil (t : Traffic) : t.run [] = t := rfl

@[simp] theorem run_cons (t : Traffic) (a : Access) (accesses : List Access) :
    t.run (a :: accesses) = (t.step a).run accesses := rfl

/-- An access is one of a request that stands between others, or of none. -/
theorem step_cases (t : Traffic) (a : Access) :
    (t.tasks[a.task]? = none ∧ t.step a = t) ∨
    ∃ before task after, t.tasks = before ++ task :: after ∧ t.tasks[a.task]? = some task ∧
      t.step a =
        ⟨(task.step a.now t.store).2, before ++ (task.step a.now t.store).1 :: after⟩ := by
  cases here : t.tasks[a.task]? with
  | none => exact .inl ⟨rfl, by simp only [step, here]⟩
  | some task =>
    obtain ⟨inside, rfl⟩ := List.getElem?_eq_some_iff.mp here
    refine .inr ⟨t.tasks.take a.task, _, t.tasks.drop (a.task + 1), ?_, rfl, ?_⟩
    · rw [← List.drop_eq_getElem_cons inside, List.take_append_drop]
    · simp only [step, here, List.set_eq_take_append_cons_drop, if_pos inside]

end Traffic

/-! ## One request alone -/

/-- A request carried out as an operation on the store. -/
def Request.perform (s : Store) (stamp : Stamp) : Request → Outcome Store (Option Customer)
  | .create id r =>
    let (answer, s) := s.createCustomer { stamp with id } r
    (answer.map some, s)
  | .update id r =>
    let (answer, s) := s.updateCustomer stamp id r
    (answer.map some, s)
  | .delete id =>
    let (answer, s) := s.deleteCustomer id
    (answer.map fun _ ↦ none, s)

namespace Traffic

variable {s : Store} {task : Task} {now : Instant} {answer : Answer}

theorem step_alone : (⟨s, [task]⟩ : Traffic).step ⟨0, now⟩ =
    ⟨(task.step now s).2, [(task.step now s).1]⟩ := rfl

@[simp] theorem step_finished : (⟨s, [.finished answer]⟩ : Traffic).step ⟨0, now⟩ =
    ⟨s, [.finished answer]⟩ := rfl

/-- Four accesses of one request that follow each other without a gap, which are as many as a request
has at most. -/
def alone (s : Store) (now : Instant) (q : Request) : Traffic :=
  (opened s [q]).run (List.replicate 4 ⟨0, now⟩)

theorem alone_eq (q : Request) : alone s now q =
    ((((opened s [q]).step ⟨0, now⟩).step ⟨0, now⟩).step ⟨0, now⟩).step ⟨0, now⟩ := rfl

variable (s) (stamp : Stamp) (id : Id)

theorem alone_create (r : Customer.New) : alone s stamp.now (.create id r) =
    ⟨((Request.create id r).perform s stamp).2,
      [.finished ((Request.create id r).perform s stamp).1]⟩ := by
  rw [alone_eq, opened, List.map_singleton, step_alone]
  cases valid : r.check with
  | error f =>
    have refused := s.createCustomer_of_invalid { stamp with id } valid
    simp [Task.step, valid, Request.perform, refused, Except.map]
  | ok _ =>
    cases taken : s.emails.contains (Customer.normalizeEmail r.email) with
    | true =>
      have refused := s.createCustomer_of_taken { stamp with id } valid taken
      simp [Task.step, valid, reserveEmail_of_taken _ _ taken, Request.perform, refused, Except.map]
    | false =>
      have made := s.createCustomer_of_free { stamp with id } valid taken
      simp only [step_alone, Task.step, valid, reserveEmail_of_free _ _ taken, Request.perform, made]
      rfl

theorem alone_update (r : Customer.Change) : alone s stamp.now (.update id r) =
    ⟨((Request.update id r).perform s stamp).2,
      [.finished ((Request.update id r).perform s stamp).1]⟩ := by
  rw [alone_eq, opened, List.map_singleton, step_alone]
  cases valid : r.check with
  | error f =>
    have refused := s.updateCustomer_of_invalid stamp id valid
    simp [Task.step, valid, Request.perform, refused, Except.map]
  | ok _ =>
    cases found : s.customers.find? id with
    | none =>
      have refused := s.updateCustomer_of_missing stamp id valid found
      simp [Task.step, valid, found, Request.perform, refused, Except.map]
    | some c =>
      cases moves : r.newEmail? c with
      | none =>
        have changed := s.updateCustomer_of_stays stamp id valid found moves
        simp [step_alone, Task.step, valid, found, moves, Request.perform, changed, replace,
          Customer.Change.write_of_stays moves, Except.map]
      | some new =>
        cases taken : s.emails.contains new with
        | true =>
          have refused := s.updateCustomer_of_taken stamp id valid found moves taken
          simp [step_alone, Task.step, valid, found, moves, reserveEmail_of_taken _ _ taken,
            Request.perform, refused, Except.map]
        | false =>
          have changed := s.updateCustomer_of_free stamp id valid found moves taken
          have here : c.id = id := Table.key_of_find? found
          have old : c.owner = ⟨c.email, id⟩ := by rw [Customer.owner, here]
          have owner : (r.apply c stamp.now).owner = ⟨new, id⟩ := by
            simp [Customer.owner, Customer.Change.apply, moves, here]
          simp [step_alone, Task.step, valid, found, moves, reserveEmail_of_free _ _ taken,
            Request.perform, changed, readdress, releaseEmail, old, owner,
            Customer.Change.write_of_moves moves, Except.map]

theorem alone_delete : alone s stamp.now (.delete id) =
    ⟨((Request.delete id).perform s stamp).2,
      [.finished ((Request.delete id).perform s stamp).1]⟩ := by
  rw [alone_eq, opened, List.map_singleton, step_alone]
  cases found : s.customers.find? id with
  | none => simp [Task.step, found, Request.perform, deleteCustomer, Except.map]
  | some c => simp [step_alone, Task.step, found, Request.perform, deleteCustomer, Except.map]

/-- A request that has the store to itself does what the operation does. -/
theorem run_alone (q : Request) :
    (opened s [q]).run (List.replicate 4 ⟨0, stamp.now⟩) =
      ⟨(q.perform s stamp).2, [.finished (q.perform s stamp).1]⟩ := by
  cases q with
  | create id r => exact alone_create s stamp id r
  | update id r => exact alone_update s stamp id r
  | delete id => exact alone_delete s stamp id

end Traffic

end Store

end Outreach
