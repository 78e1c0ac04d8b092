import Outreach.Proofs.Crm.Run
import Outreach.Proofs.Store.Traffic

/-!
# The index of addresses between requests

However many requests have their accesses in whatever order: whenever none is under way, the index of
addresses is exact, provided that no request is overtaken. A request is overtaken if it gives a record
a new address after another request has changed the address that it had read; this needs two requests
at a time that change the address of one customer.

The proviso is not idle. The address that an overtaken request writes over stays taken for ever and
belongs to nobody, unless yet another request has read it before. And the address that such a request
gives back may have come back to the customer meanwhile, so that two customers can have it in the end.
-/

namespace Outreach.Store

open Calendar

variable {s s' : Store} {c : Customer} {o : Owner} {now : Instant} {task task' : Task}

/-! ## Lost addresses -/

/-- The address is taken, but no customer has it. -/
def Lost (s : Store) (email : String) : Prop := s.emails.contains email = true ∧ ¬s.Holds email

/-- The address that a request has taken for a record and is going to give it. -/
def Task.claims? : Task → Option String
  | .adding _ r => some (Customer.normalizeEmail r.email)
  | .readdressing _ _ _ new => some new
  | _ => none

/-- The entry that a request is going to give back, if nothing is in its way. -/
def Task.returns? : Task → Option Owner
  | .moving id _ old _ | .readdressing id _ old _ => some ⟨old, id⟩
  | .releasing id email _ => some ⟨email, id⟩
  | _ => none

/-- The entry stands in the index, but no customer has the address. -/
structure Stray (s : Store) (o : Owner) : Prop where
  taken : o ∈ s.emails.rows
  unheld : ∀ c ∈ s.customers.rows, c.email ≠ o.email

/-- The request neither gives the entry back nor a record the address. -/
structure Task.Leaves (task : Task) (o : Owner) : Prop where
  /-- The address has not been taken for a record. -/
  claims : task.claims? ≠ some o.email
  /-- The entry is not going to be given back. -/
  returns : task.returns? ≠ some o

theorem Task.Leaves.releasing {id : Id} {email : String} {answer : Answer} (other : o ≠ ⟨email, id⟩) :
    (Task.releasing id email answer).Leaves o :=
  ⟨nofun, fun same ↦ other (Option.some.inj same).symm⟩

namespace Stray

theorem lost (h : s.Stray o) : s.Lost o.email :=
  ⟨Table.contains_iff.mpr ⟨o, h.taken, rfl⟩, fun ⟨c, hc, same⟩ ↦ h.unheld c hc same⟩

/-- A free address is another one. -/
theorem ne_of_free (h : s.Stray o) {email : String} (free : s.emails.contains email = false) :
    email ≠ o.email :=
  fun same ↦ Table.contains_eq_false_iff.mp free o h.taken same.symm

theorem take (h : s.Stray o) (e : Owner) (free : s.emails.contains e.email = false) :
    Stray { s with emails := s.emails.put e } o where
  taken := Table.mem_put.mpr (.inr ⟨h.taken, (h.ne_of_free free).symm⟩)
  unheld := h.unheld

theorem write (h : s.Stray o) (other : c.email ≠ o.email) :
    Stray { s with customers := s.customers.put c } o where
  taken := h.taken
  unheld := Table.forall_put h.unheld other

/-- An entry that a request leaves alone stays where it is, and the request goes on leaving it
alone. -/
theorem effect (h : s.Stray o) (e : Task.Effect now s task task' s') (leaves : task.Leaves o) :
    s'.Stray o ∧ task'.Leaves o := by
  have idle (answer : Answer) : (Task.finished answer).Leaves o := ⟨nofun, nofun⟩
  cases e with
  | refuse answer => exact ⟨h, idle answer⟩
  | claim id r free =>
    have other := h.ne_of_free free
    exact ⟨h.take ⟨_, id⟩ free, fun same ↦ other (Option.some.inj same), nofun⟩
  | add id r =>
    have other : (r.customer id now).email ≠ o.email := fun same ↦ leaves.claims (congrArg some same)
    exact ⟨h.write other, idle _⟩
  | read => exact ⟨h, nofun, nofun⟩
  | quit id r new found =>
    have other := h.unheld _ (Table.mem_of_find? found)
    exact ⟨h, nofun, fun same ↦ other (congrArg Owner.email (Option.some.inj same))⟩
  | @change c id r found =>
    have other : (r.write c c.email now).email ≠ o.email := h.unheld c (Table.mem_of_find? found)
    exact ⟨h.write other, idle _⟩
  | take id r old new free =>
    have other := h.ne_of_free free
    exact ⟨h.take ⟨new, id⟩ free, fun same ↦ other (Option.some.inj same), leaves.returns⟩
  | @readdress c id r old new found =>
    have other : (r.write c new now).email ≠ o.email := fun same ↦ leaves.claims (congrArg some same)
    exact ⟨h.write other, .releasing fun same ↦ leaves.returns (congrArg some same.symm)⟩
  | miss id r old new gone =>
    have other : o ≠ ⟨new, id⟩ := fun same ↦
      leaves.claims (congrArg (some ∘ Owner.email) same.symm)
    exact ⟨h, .releasing other⟩
  | @remove c id found =>
    have other : o ≠ ⟨c.email, id⟩ := fun same ↦
      h.unheld c (Table.mem_of_find? found) (congrArg Owner.email same.symm)
    exact ⟨⟨h.taken, Table.forall_erase h.unheld⟩, .releasing other⟩
  | release id email answer =>
    have other : o ≠ ⟨email, id⟩ := fun same ↦ leaves.returns (congrArg some same.symm)
    refine ⟨⟨?_, h.unheld⟩, idle answer⟩
    exact List.mem_filter.mpr ⟨h.taken, bne_iff_ne.mpr other⟩

end Stray

namespace Traffic

variable {t : Traffic} {a : Access} {accesses : List Access}

/-- The access gives a record a new address in place of one that the request has not read. -/
def WritesOver (t : Traffic) (a : Access) (c : Customer) : Prop :=
  ∃ id r old new, t.tasks[a.task]? = some (.readdressing id r old new) ∧
    t.store.customers.find? id = some c ∧ c.email ≠ old

/-- The entry stands in the index, no customer has the address, and all requests leave it so. -/
structure Strays (t : Traffic) (o : Owner) : Prop where
  store : t.store.Stray o
  tasks : ∀ task ∈ t.tasks, task.Leaves o

theorem Strays.step (h : t.Strays o) (a : Access) : (t.step a).Strays o := by
  rcases t.step_effect a with ⟨-, step⟩ | ⟨before, task, after, task', s', tasks, -, e, step⟩
  · rwa [step]
  · obtain ⟨store, leaves⟩ := h
    rw [tasks] at leaves
    have kept := store.effect e (leaves task (mem_middle.mpr (.inl rfl)))
    rw [step]
    refine ⟨kept.1, fun other member ↦ ?_⟩
    rcases mem_middle.mp member with rfl | member
    · exact kept.2
    · exact leaves other (mem_middle.mpr (.inr member))

theorem Strays.run (h : t.Strays o) (accesses : List Access) : (t.run accesses).Strays o := by
  induction accesses generalizing t with
  | nil => exact h
  | cons a accesses ih => exact ih (h.step a)

namespace Balanced

theorem owner_mem (balanced : t.Balanced) (hc : c ∈ t.store.customers.rows) :
    c.owner ∈ t.store.emails.rows :=
  balanced.mem_iff.mpr (List.mem_append_left _ (List.mem_map_of_mem hc))

/-- No request holds an entry with the address of a customer. -/
theorem email_ne (balanced : t.Balanced) (hc : c ∈ t.store.customers.rows) (member : task ∈ t.tasks)
    {e : Owner} (held : e ∈ task.entries) : e.email ≠ c.email := by
  intro same
  have held' : e ∈ t.tasks.flatMap Task.entries := List.mem_flatMap.mpr ⟨task, member, held⟩
  have entry : e = c.owner := Table.eq_of_key_eq
    (balanced.mem_iff.mpr (List.mem_append_right _ held')) (balanced.owner_mem hc) same
  have distinct := balanced.nodup_iff.mp t.store.emails.nodup_rows
  exact (List.nodup_append.mp distinct).2.2 _ (List.mem_map_of_mem hc) _ held' entry.symm

theorem claims?_ne (balanced : t.Balanced) (hc : c ∈ t.store.customers.rows)
    (member : task ∈ t.tasks) : task.claims? ≠ some c.email := by
  intro claims
  cases task with
  | adding | readdressing =>
    exact balanced.email_ne hc member List.mem_cons_self (Option.some.inj claims)
  | _ => cases claims

/-- The address that a request writes over without having read it is nobody's from then on, unless
another request is going to give it back. -/
theorem strays_step (balanced : t.Balanced) (crossed : t.WritesOver a c)
    (kept : ∀ task ∈ t.tasks, task.returns? ≠ some c.owner) : (t.step a).Strays c.owner := by
  obtain ⟨id, r, old, new, here, found, other⟩ := crossed
  have hc := Table.mem_of_find? found
  have own : c.id = id := Table.key_of_find? found
  have moves := balanced.email_ne hc (List.mem_of_getElem? here) List.mem_cons_self
  rcases t.step_cases a with ⟨nobody, -⟩ | ⟨before, task, after, tasks, here', step⟩
  · rw [here] at nobody
    cases nobody
  · rw [here] at here'
    cases here'
    simp only [Task.step, found] at step
    rw [step]
    refine ⟨⟨balanced.owner_mem hc, fun d hd ↦ ?_⟩, fun task member ↦ ?_⟩
    · rcases Table.mem_put.mp hd with rfl | ⟨hd, apart⟩
      · exact moves
      · intro same
        have entry : d.owner = c.owner :=
          Table.eq_of_key_eq (balanced.owner_mem hd) (balanced.owner_mem hc) same
        exact apart (congrArg Owner.customer entry)
    · rcases mem_middle.mp member with rfl | member
      · exact .releasing fun same ↦ other (congrArg Owner.email same)
      · have member' : task ∈ t.tasks := by
          rw [tasks]
          exact mem_middle.mpr (.inr member)
        exact ⟨balanced.claims?_ne hc member', kept task member'⟩

end Balanced

theorem run_append (t : Traffic) (earlier later : List Access) :
    t.run (earlier ++ later) = (t.run earlier).run later := List.foldl_append

end Traffic

/-! ## The index between requests -/

/-- What requests that have some accesses make of the index of addresses. -/
structure Traffic.IndexRules (t : Traffic) (accesses : List Access) : Prop where
  /-- Besides the entries of the customers, the index has those that requests hold, and no others, at
  every moment if and only if no request is overtaken. -/
  balanced_iff : t.Orderly accesses ↔ t.Throughout Balanced accesses
  /-- Whenever no request is under way then, the index is exact and decides who gets which address. -/
  exact : t.Orderly accesses → (t.run accesses).Idle → (t.run accesses).store.AddressRules
  /-- No request is overtaken if no two at a time are changing the address of one customer. -/
  orderly : t.Throughout Single accesses → t.Orderly accesses
  /-- The address that the first overtaken request writes over is taken for ever and belongs to nobody,
  unless another request is going to give it back. -/
  lost : ∀ earlier a later c, accesses = earlier ++ a :: later → t.Orderly earlier →
    (t.run earlier).WritesOver a c →
    (∀ task ∈ (t.run earlier).tasks, task.returns? ≠ some c.owner) →
    (t.run accesses).store.Lost c.email

/-- From a store with an exact index, in which the identities of customers to be made are new, any
number of requests have their accesses in any order, as the rules say. -/
theorem traffic_indexRules {s : Store} {requests : List Request} (exact : s.Indexed)
    (distinct : (requests.flatMap Request.enrols).Nodup)
    (unknown : ∀ id ∈ requests.flatMap Request.enrols, s.customers.find? id = none)
    (accesses : List Access) : (Traffic.opened s requests).IndexRules accesses := by
  have balanced : (Traffic.opened s requests).Balanced := Traffic.balanced_opened exact
  have fresh : (Traffic.opened s requests).Fresh := by
    constructor <;> rw [Traffic.enrols_opened]
    · exact distinct
    · exact unknown
  have orderly_iff (some : List Access) := Traffic.orderly_iff_balanced fresh balanced some
  exact {
    balanced_iff := orderly_iff accesses
    exact := fun kept idle ↦ (((orderly_iff accesses).mp kept).last.indexed idle).addressRules
    orderly := Traffic.orderly_of_single Traffic.settled_opened fresh
    lost := by
      rintro earlier a later c rfl kept crossed unreturned
      have strays := ((orderly_iff earlier).mp kept).last.strays_step crossed unreturned
      rw [Traffic.run_append]
      exact (strays.run later).store.lost }

/-! ## Crossing requests -/

open Crm (tick newcomer)

def annAlone : Store := Store.empty.enrol ((newcomer "Ann" "ann@xeno.in").customer ⟨1⟩ .epoch)

def moveTo (email : String) : Customer.Change :=
  ⟨none, some email, none, none, none, none, none, none, none, none⟩

theorem indexed_annAlone : annAlone.Indexed := Indexed.empty.enrol rfl rfl

/-- The accesses of the requests with some numbers, one second after the other. -/
def accessesOf (tasks : List Nat) : List Access := tasks.zipIdx.map fun (i, n) ↦ ⟨i, (tick n).now⟩

/-- Ann is to move and then to be removed, another request with a new name for her has read the record
before, and Bob is to get the address that she gives up. -/
def departure : List Request :=
  [.update ⟨1⟩ (moveTo "anna@xeno.in"), .update ⟨1⟩ { moveTo "ann@xeno.in" with name := some "Anna" },
    .delete ⟨1⟩, .create ⟨2⟩ (newcomer "Bob" "ann@xeno.in")]

/-- Each of them has accesses between those of another one. -/
def departing : List Access := accessesOf [0, 1, 0, 1, 0, 2, 0, 3, 2, 3]

theorem traffic_indexRules_departure :
    annAlone.Indexed ∧ (departure.flatMap Request.enrols).Nodup ∧
      (∀ id ∈ departure.flatMap Request.enrols, annAlone.customers.find? id = none) ∧
      let t := Traffic.opened annAlone departure
      t.Orderly departing ∧ (t.run departing).Idle ∧ (t.run departing).store.AddressRules ∧
        (t.run departing).store.emails.rows = [⟨"ann@xeno.in", ⟨2⟩⟩] := by
  have distinct : (departure.flatMap Request.enrols).Nodup := by decide
  have unknown : ∀ id ∈ departure.flatMap Request.enrols, annAlone.customers.find? id = none := by
    decide
  have orderly : (Traffic.opened annAlone departure).Orderly departing := by decide +kernel
  have idle : ((Traffic.opened annAlone departure).run departing).Idle := by
    unfold Traffic.Idle
    decide +kernel
  have rules := (traffic_indexRules indexed_annAlone distinct unknown departing).exact orderly idle
  exact ⟨indexed_annAlone, distinct, unknown, orderly, idle, rules, by decide +kernel⟩

/-- Three requests are to move Ann, the last one back to the address that she has had, which Bob asks
for as well. -/
def detour : List Request :=
  [.update ⟨1⟩ (moveTo "anna@xeno.in"), .update ⟨1⟩ (moveTo "annie@xeno.in"),
    .update ⟨1⟩ (moveTo "ann@xeno.in"), .create ⟨2⟩ (newcomer "Bob" "ann@xeno.in")]

/-- The first two have read the record before it is written, and the second gives the address back
after the third has been answered. -/
def crossing : List Access := accessesOf [0, 1, 0, 0, 0, 1, 1, 2, 2, 2, 2, 1, 3, 3]

/-- In the end, Ann and Bob have one address, and another one belongs to nobody. -/
theorem addresses_shared_and_lost :
    annAlone.Indexed ∧ (detour.flatMap Request.enrols).Nodup ∧
      (∀ id ∈ detour.flatMap Request.enrols, annAlone.customers.find? id = none) ∧
      let t := (Traffic.opened annAlone detour).run crossing
      t.Idle ∧ t.store.Lost "anna@xeno.in" ∧
        ∃ c ∈ t.store.customers.rows, ∃ d ∈ t.store.customers.rows, c ≠ d ∧ c.email = d.email := by
  refine ⟨indexed_annAlone, by decide, by decide, ?_, ?_, ?_⟩
  · unfold Traffic.Idle
    decide +kernel
  · unfold Lost Store.Holds
    decide +kernel
  · decide +kernel

end Outreach.Store
