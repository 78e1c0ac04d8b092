import Outreach.Proofs.Store.Accesses
import Outreach.Proofs.Store.Addresses

/-!
# Requests that cross

While requests are under way, some entries of the index of addresses belong to no record: the address
that is taken for a customer to be made, the one that is taken before a record is written, and the one
that is not given back yet. A request that is under way holds at most one such entry. The books are
balanced if the index has the entries of the customers and those that requests hold, and no others;
when no request is under way, this means that the index is exact.

Every access keeps the books balanced but one: a record may be given a new address although its
address is not the one that was read any more, because another request has changed it in between.
Then the address that is written over is given back by nobody, and an address is given back that may
be in use. So the books stay balanced if and only if no request is overtaken in this way, and for that
it is enough that no two requests at a time are changing the address of one customer.
-/

namespace Outreach.Store

open Calendar

/-! ## What an access can do -/

/-- The identity of the customer that is to be made. -/
def Request.enrols : Request → List Id
  | .create id _ => [id]
  | _ => []

namespace Task

/-- The entries of the index that a request holds, which belong to no record. -/
def entries : Task → List Owner
  | .adding id r => [⟨Customer.normalizeEmail r.email, id⟩]
  | .readdressing id _ _ new => [⟨new, id⟩]
  | .releasing id email _ => [⟨email, id⟩]
  | _ => []

/-- The identity of the customer that a request is still to make. -/
def enrols : Task → List Id
  | .waiting q => q.enrols
  | .adding id _ => [id]
  | _ => []

/-- The customer whose record a request has read in order to give it another address, until it has
written the record. -/
def moves : Task → List Id
  | .moving id _ _ _ => [id]
  | .readdressing id _ _ _ => [id]
  | _ => []

/-- The request is about to give a record a new address, but the record has not the address any more
that was read. -/
def overtaken (s : Store) : Task → Bool
  | .readdressing id _ old _ => (s.customers.find? id).any (·.email != old)
  | _ => false

/-- The record has the address that was read in order to give the customer another one. -/
def Current (s : Store) : Task → Prop
  | .moving id _ old _ | .readdressing id _ old _ =>
    ∀ c, s.customers.find? id = some c → c.email = old
  | _ => True

/-- From one stage of a request and one store to others. -/
inductive Effect (now : Instant) (s : Store) : Task → Task → Store → Prop
  /-- A request that holds nothing is refused, or has been answered already. -/
  | refuse {task : Task} (answer : Answer) (holdsNothing : task.entries = []) :
    Effect now s task (.finished answer) s
  /-- An address is taken for a customer to be made. -/
  | claim (id : Id) (r : Customer.New)
      (free : s.emails.contains (Customer.normalizeEmail r.email) = false) :
    Effect now s (.waiting (.create id r)) (.adding id r)
      { s with emails := s.emails.put ⟨Customer.normalizeEmail r.email, id⟩ }
  | add (id : Id) (r : Customer.New) :
    Effect now s (.adding id r) (.finished (.ok (some (r.customer id now))))
      { s with customers := s.customers.put (r.customer id now) }
  /-- A record is read that is to keep its address. -/
  | read {c : Customer} (id : Id) (r : Customer.Change) (found : s.customers.find? id = some c) :
    Effect now s (.waiting (.update id r)) (.changing id r) s
  /-- A record is read that is to get another address. -/
  | quit {c : Customer} (id : Id) (r : Customer.Change) (new : String)
      (found : s.customers.find? id = some c) :
    Effect now s (.waiting (.update id r)) (.moving id r c.email new) s
  /-- A record is written that keeps its address. -/
  | change {c : Customer} (id : Id) (r : Customer.Change) (found : s.customers.find? id = some c) :
    Effect now s (.changing id r) (.finished (.ok (some (r.write c c.email now))))
      { s with customers := s.customers.put (r.write c c.email now) }
  | take (id : Id) (r : Customer.Change) (old new : String) (free : s.emails.contains new = false) :
    Effect now s (.moving id r old new) (.readdressing id r old new)
      { s with emails := s.emails.put ⟨new, id⟩ }
  /-- A record is written that gets the new address. -/
  | readdress {c : Customer} (id : Id) (r : Customer.Change) (old new : String)
      (found : s.customers.find? id = some c) :
    Effect now s (.readdressing id r old new) (.releasing id old (.ok (some (r.write c new now))))
      { s with customers := s.customers.put (r.write c new now) }
  /-- The record is gone for which a new address was taken. -/
  | miss (id : Id) (r : Customer.Change) (old new : String) (gone : s.customers.find? id = none) :
    Effect now s (.readdressing id r old new) (.releasing id new (.error (.missing .customer))) s
  | remove {c : Customer} (id : Id) (found : s.customers.find? id = some c) :
    Effect now s (.waiting (.delete id)) (.releasing id c.email (.ok none))
      { s with customers := s.customers.erase id }
  | release (id : Id) (email : String) (answer : Answer) :
    Effect now s (.releasing id email answer) (.finished answer) (s.releaseEmail email id)

variable {now : Instant} {s s' : Store} {task task' : Task} {id : Id} {more : List Owner}

theorem effect_step (now : Instant) (s : Store) (task : Task) :
    Effect now s task (task.step now s).1 (task.step now s).2 := by
  cases task with
  | waiting q =>
    cases q with
    | create id r =>
      cases valid : r.check with
      | error f =>
        simp only [step, valid]
        exact .refuse _ rfl
      | ok _ =>
        cases taken : s.emails.contains (Customer.normalizeEmail r.email) with
        | true =>
          simp only [step, valid, reserveEmail_of_taken _ _ taken]
          exact .refuse _ rfl
        | false =>
          simp only [step, valid, reserveEmail_of_free _ _ taken]
          exact .claim id r taken
    | update id r =>
      cases valid : r.check with
      | error f =>
        simp only [step, valid]
        exact .refuse _ rfl
      | ok _ =>
        cases found : s.customers.find? id with
        | none =>
          simp only [step, valid, found]
          exact .refuse _ rfl
        | some c =>
          cases moves : r.newEmail? c with
          | none =>
            simp only [step, valid, found, moves]
            exact .read id r found
          | some new =>
            simp only [step, valid, found, moves]
            exact .quit id r new found
    | delete id =>
      cases found : s.customers.find? id with
      | none =>
        simp only [step, found]
        exact .refuse _ rfl
      | some c =>
        simp only [step, found]
        exact .remove id found
  | adding id r => exact .add id r
  | changing id r =>
    cases found : s.customers.find? id with
    | none =>
      simp only [step, found]
      exact .refuse _ rfl
    | some c =>
      simp only [step, found]
      exact .change id r found
  | moving id r old new =>
    cases taken : s.emails.contains new with
    | true =>
      simp only [step, reserveEmail_of_taken _ _ taken]
      exact .refuse _ rfl
    | false =>
      simp only [step, reserveEmail_of_free _ _ taken]
      exact .take id r old new taken
  | readdressing id r old new =>
    cases found : s.customers.find? id with
    | none =>
      simp only [step, found]
      exact .miss id r old new found
    | some c =>
      simp only [step, found]
      exact .readdress id r old new found
  | releasing id email answer => exact .release id email answer
  | finished answer => exact .refuse answer rfl

end Task

/-! ## Balanced books -/

/-- The index has the entries of the customers and some more, and no others. -/
def IndexedWith (s : Store) (more : List Owner) : Prop :=
  s.emails.rows.Perm (s.customers.rows.map Customer.owner ++ more)

variable {s s' : Store} {c c' : Customer} {o : Owner} {id : Id} {more : List Owner}

/-- Without further entries, the index is exact. -/
theorem indexedWith_nil_iff : s.IndexedWith [] ↔ s.Indexed := by
  rw [IndexedWith, List.append_nil]
  constructor
  · intro h o
    rw [h.mem_iff, List.mem_map]
  · exact Indexed.perm

theorem perm_exchange {α : Type} (a b : α) (l m : List α) :
    (a :: l ++ b :: m).Perm (b :: l ++ a :: m) :=
  ((List.perm_middle.cons a).trans (.swap b a _)).trans (List.perm_middle.symm.cons b)

/-- The entries of the customers, up to their arrangement, when a record is looked at. -/
theorem perm_owners (found : s.customers.find? id = some c) :
    (s.customers.rows.map Customer.owner).Perm
      (c.owner :: (s.customers.erase id).rows.map Customer.owner) :=
  (Table.perm_of_find? found).map _

/-- The entries of the customers, up to their arrangement, when a record has been put. -/
theorem perm_owners_put (s : Store) (c : Customer) :
    ((s.customers.put c).rows.map Customer.owner).Perm
      (c.owner :: (s.customers.erase c.id).rows.map Customer.owner) :=
  (Table.perm_put s.customers c).map _

namespace IndexedWith

theorem congr {more' : List Owner} (same : more.Perm more') :
    s.IndexedWith more ↔ s.IndexedWith more' :=
  ⟨fun h ↦ h.trans (same.append_left _), fun h ↦ h.trans (same.symm.append_left _)⟩

/-- An address is taken. -/
theorem take (h : s.IndexedWith more) (o : Owner) (free : s.emails.contains o.email = false) :
    IndexedWith { s with emails := s.emails.put o } (o :: more) := by
  have absent : s.emails.find? o.email = none :=
    Table.find?_eq_none_iff.mpr (Table.contains_eq_false_iff.mp free)
  have put : (s.emails.put o).rows.Perm (o :: s.emails.rows) := Table.perm_put_of_new absent
  exact (put.trans (h.cons o)).trans List.perm_middle.symm

theorem release {email : String} (h : s.IndexedWith (⟨email, id⟩ :: more)) :
    (s.releaseEmail email id).IndexedWith more := by
  have front : s.emails.rows.Perm (⟨email, id⟩ :: (s.customers.rows.map Customer.owner ++ more)) :=
    h.trans List.perm_middle
  have out := front.erase ⟨email, id⟩
  rw [List.erase_cons_head, s.emails.nodup_rows.erase_eq_filter] at out
  exact out

theorem add (h : s.IndexedWith (c.owner :: more)) (new : s.customers.find? c.id = none) :
    IndexedWith { s with customers := s.customers.put c } more := by
  have added : ((s.customers.put c).rows.map Customer.owner ++ more).Perm
      (s.customers.rows.map Customer.owner ++ c.owner :: more) :=
    (((Table.perm_put_of_new new).map Customer.owner).append_right more).trans List.perm_middle.symm
  exact h.trans added.symm

theorem remove (h : s.IndexedWith more) (found : s.customers.find? id = some c) :
    IndexedWith { s with customers := s.customers.erase id } (c.owner :: more) := by
  have removed := ((perm_owners found).append_right more).trans List.perm_middle.symm
  exact h.trans removed

/-- A record is replaced by another one of the same customer. Whoever held the entry of the new record
then holds that of the old one. -/
theorem write_iff (found : s.customers.find? c.id = some c) (here : c'.id = c.id) :
    IndexedWith { s with customers := s.customers.put c' } (c.owner :: more) ↔
      s.IndexedWith (c'.owner :: more) := by
  have before := (perm_owners found).append_right (c'.owner :: more)
  have after := (perm_owners_put s c').append_right (c.owner :: more)
  rw [here] at after
  have same := (after.trans (perm_exchange ..)).trans before.symm
  exact ⟨fun h ↦ h.trans same, fun h ↦ h.trans same.symm⟩

/-- A record is replaced by another one with the same address. -/
theorem write (h : s.IndexedWith more) (found : s.customers.find? c.id = some c)
    (same : c'.owner = c.owner) : IndexedWith { s with customers := s.customers.put c' } more := by
  have before := (perm_owners found).append_right more
  have after := (perm_owners_put s c').append_right more
  rw [same, show c'.id = c.id from congrArg Owner.customer same] at after
  exact h.trans (before.trans after.symm)

/-- Of two entries of which one is held beside others, only one is right. -/
theorem head_iff {o' : Owner} (h : s.IndexedWith (o :: more)) :
    s.IndexedWith (o' :: more) ↔ o' = o := by
  constructor
  · intro h'
    have tails := (List.perm_append_left_iff _).mp (h'.symm.trans h)
    exact List.singleton_perm_singleton.mp ((List.perm_append_right_iff more).mp tails)
  · rintro rfl
    exact h

end IndexedWith

namespace Task.Effect

variable {now : Instant} {task task' : Task}

/-- If the books are balanced, they are so after the access if and only if the request has not been
overtaken. -/
theorem indexedWith_iff (e : Effect now s task task' s') (h : s.IndexedWith (task.entries ++ more))
    (unknown : ∀ id ∈ task.enrols, s.customers.find? id = none) :
    s'.IndexedWith (task'.entries ++ more) ↔ task.overtaken s = false := by
  cases e with
  | refuse answer holdsNothing =>
    rw [holdsNothing] at h
    have kept : task.overtaken s = false := by
      cases task with
      | readdressing => cases holdsNothing
      | _ => rfl
    exact iff_of_true h kept
  | claim id r free => exact iff_of_true (h.take ⟨_, id⟩ free) rfl
  | add id r =>
    have held : s.IndexedWith ((r.customer id now).owner :: more) := h
    exact iff_of_true (held.add (unknown id List.mem_cons_self)) rfl
  | read id r found => exact iff_of_true h rfl
  | quit id r new found => exact iff_of_true h rfl
  | @change c id r found =>
    have here : c.id = id := Table.key_of_find? found
    subst here
    exact iff_of_true (h.write found rfl) rfl
  | take id r old new free => exact iff_of_true (h.take ⟨new, id⟩ free) rfl
  | @readdress c id r old new found =>
    have here : c.id = id := Table.key_of_find? found
    subst here
    have written := (IndexedWith.write_iff found (r.id_write c new now)).mpr h
    -- the entry that is held now is that of the record as it was, and has to be the one to be released
    refine written.head_iff.trans ?_
    rw [overtaken, found, Option.any_some, bne_eq_false_iff_eq, Customer.owner, Owner.mk.injEq,
      and_iff_left rfl, eq_comm]
  | miss id r old new gone => exact iff_of_true h (by simp [overtaken, gone])
  | remove id found =>
    have here := Table.key_of_find? found
    subst here
    exact iff_of_true (h.remove found) rfl
  | release id email answer => exact iff_of_true h.release rfl

/-- An identity that is not given stays new. -/
theorem unknown (e : Effect now s task task' s') (kept : id ∈ task.enrols → id ∈ task'.enrols)
    (unknown : s.customers.find? id = none) : s'.customers.find? id = none := by
  cases e with
  | add id' r =>
    have apart : (r.customer id' now).id ≠ id := fun same ↦
      List.not_mem_nil (kept (same ▸ List.mem_cons_self))
    rw [Table.find?_put, if_neg apart, unknown]
  | @change c id' r found =>
    exact Registers.find?_put_eq_none (find?_self found) (r.id_write c c.email now) id unknown
  | @readdress c id' r old new found =>
    exact Registers.find?_put_eq_none (find?_self found) (r.id_write c new now) id unknown
  | remove id' found => rw [Table.find?_erase, unknown, ite_self]
  | _ => exact unknown

/-- An access makes no request enrol anybody else. -/
theorem enrols_sublist (e : Effect now s task task' s') : task'.enrols.Sublist task.enrols := by
  cases e with
  | claim => exact .refl _
  | _ => exact List.nil_sublist _

/-- A request begins to give a customer another address when it reads the record. -/
theorem moves_cases (e : Effect now s task task' s') :
    task'.moves.Sublist task.moves ∨
      ∃ c id, s.customers.find? id = some c ∧ task'.moves = [id] := by
  cases e with
  | quit id r new found => exact .inr ⟨_, id, found, rfl⟩
  | take => exact .inl (.refl _)
  | _ => exact .inl (List.nil_sublist _)

/-- The address of a customer is changed only by a request that is giving the customer another one, or
is making the customer. -/
theorem email_eq (e : Effect now s task task' s') (kept : id ∉ task.moves) (known : id ∉ task.enrols)
    (found : s'.customers.find? id = some c') :
    ∃ c, s.customers.find? id = some c ∧ c'.email = c.email := by
  cases e with
  | add id' r =>
    have apart : (r.customer id' now).id ≠ id := fun same ↦ known (same ▸ List.mem_cons_self)
    rw [Table.find?_put, if_neg apart] at found
    exact ⟨c', found, rfl⟩
  | @change c id' r found' =>
    have here : c.id = id' := Table.key_of_find? found'
    rw [Table.find?_put] at found
    split at found
    · next same =>
      cases found
      have same' : id' = id := here.symm.trans same
      exact ⟨c, same' ▸ found', rfl⟩
    · exact ⟨c', found, rfl⟩
  | @readdress c id' r old new found' =>
    have here : c.id = id' := Table.key_of_find? found'
    have apart : (r.write c new now).id ≠ id := by
      intro same
      have same' : id' = id := here.symm.trans same
      exact kept (same' ▸ List.mem_cons_self)
    rw [Table.find?_put, if_neg apart] at found
    exact ⟨c', found, rfl⟩
  | remove id' found' =>
    rw [Table.find?_erase] at found
    split at found
    · cases found
    · exact ⟨c', found, rfl⟩
  | _ => exact ⟨c', found, rfl⟩

/-- What a request has read is right after it has been read, and until the record is written. -/
theorem current (e : Effect now s task task' s') (h : task.Current s) : task'.Current s' := by
  cases e with
  | quit id r new found =>
    intro c found'
    rw [found] at found'
    cases found'
    rfl
  | take => exact h
  | _ => trivial

end Task.Effect

/-- What a request has read stays right as long as the address of the customer does. -/
theorem Task.Current.congr {task : Task} (h : task.Current s)
    (same : ∀ id ∈ task.moves, ∀ c', s'.customers.find? id = some c' →
      ∃ c, s.customers.find? id = some c ∧ c'.email = c.email) : task.Current s' := by
  cases task with
  | moving id r old new | readdressing id r old new =>
    intro c' found
    obtain ⟨c, found', email⟩ := same id List.mem_cons_self c' found
    exact email.trans (h c found')
  | _ => trivial

/-! ## Traffic -/

namespace Traffic

variable {t : Traffic} {a : Access} {accesses : List Access}

/-- The index has the entries of the customers and those that requests hold, and no others. -/
def Balanced (t : Traffic) : Prop := t.store.IndexedWith (t.tasks.flatMap Task.entries)

/-- The customers to be made get different identities that nobody has. -/
structure Fresh (t : Traffic) : Prop where
  distinct : (t.tasks.flatMap Task.enrols).Nodup
  unknown : ∀ id ∈ t.tasks.flatMap Task.enrols, t.store.customers.find? id = none

/-- No two requests at a time have read the record of one customer in order to give it another address,
and not written it yet. -/
def Single (t : Traffic) : Prop := (t.tasks.flatMap Task.moves).Nodup

/-- The access is that of a request which has been overtaken. -/
def overtaken (t : Traffic) (a : Access) : Bool := (t.tasks[a.task]?).any (·.overtaken t.store)

/-- None of the accesses is that of a request which has been overtaken by then. -/
def Orderly (t : Traffic) : List Access → Prop
  | [] => True
  | a :: accesses => t.overtaken a = false ∧ (t.step a).Orderly accesses

instance decidableOrderly : (t : Traffic) → (accesses : List Access) → Decidable (t.Orderly accesses)
  | _, [] => isTrue trivial
  | t, a :: accesses =>
    have := decidableOrderly (t.step a) accesses
    inferInstanceAs (Decidable (_ ∧ _))

/-- Something holds before, between and after the accesses. -/
def Throughout (P : Traffic → Prop) (t : Traffic) : List Access → Prop
  | [] => P t
  | a :: accesses => P t ∧ (t.step a).Throughout P accesses

theorem mem_middle {α : Type} {a b : α} {before after : List α} :
    a ∈ before ++ b :: after ↔ a = b ∨ a ∈ before ++ after :=
  List.perm_middle.mem_iff.trans List.mem_cons

/-- What one of the requests has stands beside what the others have. -/
theorem perm_flatMap {α β : Type} (f : α → List β) (before : List α) (x : α) (after : List α) :
    ((before ++ x :: after).flatMap f).Perm (f x ++ (before ++ after).flatMap f) :=
  (List.perm_middle.flatMap_right f).trans (.of_eq List.flatMap_cons)

theorem step_effect (t : Traffic) (a : Access) :
    (t.tasks[a.task]? = none ∧ t.step a = t) ∨
    ∃ before task after task' s', t.tasks = before ++ task :: after ∧
      t.tasks[a.task]? = some task ∧ Task.Effect a.now t.store task task' s' ∧
      t.step a = ⟨s', before ++ task' :: after⟩ := by
  rcases t.step_cases a with idle | ⟨before, task, after, tasks, here, step⟩
  · exact .inl idle
  · exact .inr ⟨before, task, after, _, _, tasks, here, Task.effect_step .., step⟩

/-- Balanced books stay balanced by an access if and only if its request has not been overtaken. -/
theorem balanced_step_iff (fresh : t.Fresh) (balanced : t.Balanced) (a : Access) :
    (t.step a).Balanced ↔ t.overtaken a = false := by
  rcases t.step_effect a with ⟨nobody, step⟩ | ⟨before, task, after, task', s', tasks, here, e, step⟩
  · rw [step, overtaken, nobody]
    exact iff_of_true balanced rfl
  · rw [Balanced, tasks, IndexedWith.congr (perm_flatMap ..)] at balanced
    rw [step, Balanced, IndexedWith.congr (perm_flatMap ..), overtaken, here, Option.any_some]
    refine e.indexedWith_iff balanced fun id hid ↦ fresh.unknown id ?_
    rw [tasks]
    exact (perm_flatMap ..).mem_iff.mpr (List.mem_append_left _ hid)

theorem Fresh.step (fresh : t.Fresh) (a : Access) : (t.step a).Fresh := by
  rcases t.step_effect a with ⟨-, step⟩ | ⟨before, task, after, task', s', tasks, -, e, step⟩
  · rwa [step]
  · obtain ⟨distinct, unknown⟩ := fresh
    rw [tasks, (perm_flatMap ..).nodup_iff] at distinct
    simp only [tasks, (perm_flatMap ..).mem_iff] at unknown
    have fewer := e.enrols_sublist.append_right ((before ++ after).flatMap Task.enrols)
    rw [step]
    refine ⟨(perm_flatMap ..).nodup_iff.mpr (distinct.sublist fewer), fun id hid ↦ ?_⟩
    have hid' := (perm_flatMap ..).mem_iff.mp hid
    refine e.unknown (fun given ↦ ?_) (unknown id (fewer.subset hid'))
    -- if the request gives the identity, no other one does
    refine (List.mem_append.mp hid').resolve_right fun elsewhere ↦ ?_
    exact (List.nodup_append.mp distinct).2.2 id given id elsewhere rfl

/-- What requests have read of customers whose addresses they are changing is still so, and none of
these customers is one to be made. -/
structure Settled (t : Traffic) : Prop where
  /-- The address that was read is that of the record. -/
  current : ∀ task ∈ t.tasks, task.Current t.store
  /-- The customer is not one to be made. -/
  apart : ∀ id ∈ t.tasks.flatMap Task.moves, id ∉ t.tasks.flatMap Task.enrols

/-- As long as no two requests are changing the address of one customer, what they have read stays
right. -/
theorem Settled.step (settled : t.Settled) (fresh : t.Fresh) (single : t.Single) (a : Access) :
    (t.step a).Settled := by
  rcases t.step_effect a with ⟨-, step⟩ | ⟨before, task, after, task', s', tasks, -, e, step⟩
  · rwa [step]
  · obtain ⟨current, apart⟩ := settled
    have unknown := fresh.unknown
    rw [Single, tasks, (perm_flatMap ..).nodup_iff] at single
    simp only [tasks, (perm_flatMap ..).mem_iff] at current apart unknown
    rw [step]
    constructor
    · intro other member
      rcases mem_middle.mp member with rfl | member
      · exact e.current (current task (mem_middle.mpr (.inl rfl)))
      · have member' : other ∈ before ++ task :: after := mem_middle.mpr (.inr member)
        refine (current other member').congr fun id hid c' found ↦ e.email_eq ?_ ?_ found
        -- the other request is changing another address than the one that takes its turn
        · intro mine
          have theirs := List.mem_flatMap.mpr ⟨other, member, hid⟩
          exact (List.nodup_append.mp single).2.2 id mine id theirs rfl
        · intro given
          have theirs := List.mem_flatMap.mpr ⟨other, member, hid⟩
          exact apart id (List.mem_append_right _ theirs) (List.mem_append_left _ given)
    · intro id hid given
      have hid' := (perm_flatMap ..).mem_iff.mp hid
      have given' := (e.enrols_sublist.append_right _).subset ((perm_flatMap ..).mem_iff.mp given)
      rcases e.moves_cases with fewer | ⟨c, id', found, moves⟩
      · exact apart id ((fewer.append_right _).subset hid') given'
      · rw [moves] at hid'
        rcases List.mem_cons.mp hid' with rfl | elsewhere
        · rw [unknown id given'] at found
          cases found
        · exact apart id (List.mem_append_right _ elsewhere) given'

/-- A request whose reading is right is not overtaken. -/
theorem Settled.overtaken_eq_false (settled : t.Settled) (a : Access) : t.overtaken a = false := by
  rw [overtaken, Option.any_eq_false]
  intro task here
  have current := settled.current task (List.mem_of_getElem? here)
  cases task with
  | readdressing id r old new =>
    rw [Task.overtaken, Option.any_eq_false]
    intro c found
    simp [current c found]
  | _ => rfl

/-! ## Runs -/

theorem Throughout.first {P : Traffic → Prop} (h : t.Throughout P accesses) : P t := by
  cases accesses with
  | nil => exact h
  | cons a accesses => exact h.1

theorem Throughout.last {P : Traffic → Prop} (h : t.Throughout P accesses) :
    P (t.run accesses) := by
  induction accesses generalizing t with
  | nil => exact h
  | cons a accesses ih => exact ih h.2

/-- The books are balanced all the time if and only if no request is overtaken. -/
theorem orderly_iff_balanced (fresh : t.Fresh) (balanced : t.Balanced) (accesses : List Access) :
    t.Orderly accesses ↔ t.Throughout Balanced accesses := by
  induction accesses generalizing t with
  | nil => exact iff_of_true trivial balanced
  | cons a accesses ih =>
    have access := balanced_step_iff fresh balanced a
    constructor
    · rintro ⟨kept, rest⟩
      exact ⟨balanced, (ih (fresh.step a) (access.mpr kept)).mp rest⟩
    · rintro ⟨-, rest⟩
      exact ⟨access.mp rest.first, (ih (fresh.step a) rest.first).mpr rest⟩

theorem orderly_of_single (settled : t.Settled) (fresh : t.Fresh)
    (single : t.Throughout Single accesses) : t.Orderly accesses := by
  induction accesses generalizing t with
  | nil => trivial
  | cons a accesses ih =>
    have next := settled.step fresh single.first a
    exact ⟨settled.overtaken_eq_false a, ih next (fresh.step a) single.2⟩

/-! ## The beginning and the end -/

section Opened

variable {s : Store} {requests : List Request}

/-- No request holds anything at the beginning. -/
theorem balanced_opened (exact : s.Indexed) : (opened s requests).Balanced := by
  have nothing : (opened s requests).tasks.flatMap Task.entries = [] := by
    simp [opened, Task.entries]
  rw [Balanced, nothing]
  exact indexedWith_nil_iff.mpr exact

theorem enrols_opened :
    (opened s requests).tasks.flatMap Task.enrols = requests.flatMap Request.enrols :=
  List.flatMap_map ..

theorem settled_opened : (opened s requests).Settled where
  current := by simp [opened, Task.Current]
  apart := by simp [opened, Task.moves]

end Opened

/-- No request holds anything when none is under way. -/
theorem Balanced.indexed (balanced : t.Balanced) (idle : t.Idle) : t.store.Indexed := by
  have nothing : t.tasks.flatMap Task.entries = [] := by
    rw [List.flatMap_eq_nil_iff]
    intro task member
    have answered := idle task member
    cases task with
    | waiting | finished => rfl
    | _ => cases answered
  rw [Balanced, nothing] at balanced
  exact indexedWith_nil_iff.mp balanced

end Traffic

end Outreach.Store
