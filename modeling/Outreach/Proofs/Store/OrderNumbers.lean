import Outreach.Proofs.Store.Visits
import Outreach.Proofs.Text.Numeral

/-!
# Numbers of orders

The number of an order consists of the time, to the millisecond, and of its place in the sequence. The
time is worth nothing for telling orders apart: a clock may stand still or go back. The place alone
does it. It is written behind the last dash, in digits that are read back as the number they were, and
no two orders have the same place, whoever makes them, until 2^64 of them have been made.
-/

namespace Outreach

open Text

namespace Store

/-! ## The place in the sequence -/

/-- What stands behind the last dash is found from the end. -/
theorem takeWhile_reverse_dash (cs : List Char) {ds : List Char} (digits : ∀ d ∈ ds, isDigit d = true) :
    (cs ++ '-' :: ds).reverse.takeWhile isDigit = ds.reverse := by
  have digits' : ∀ d ∈ ds.reverse, isDigit d = true := fun d hd ↦ digits d (List.mem_reverse.mp hd)
  have dash : isDigit '-' = false := by decide
  rw [List.reverse_append, List.reverse_cons, List.append_assoc,
    List.takeWhile_append_of_pos digits', List.singleton_append, List.takeWhile_cons, dash]
  exact List.append_nil _

/-- The place can be read off the number of an order, whatever the time. -/
theorem valueOf_orderNumber (now : Calendar.Instant) (count : UInt64) :
    valueOf ((orderNumber now count).toList.reverse.takeWhile isDigit).reverse = count.toNat := by
  rw [orderNumber, String.toList_ofList, takeWhile_reverse_dash _ fun d ↦ isDigit_of_mem_padded,
    List.reverse_reverse, valueOf_padded]

theorem count_eq_of_orderNumber_eq {now now' : Calendar.Instant} {m n : UInt64}
    (h : orderNumber now m = orderNumber now' n) : m = n := by
  rw [← UInt64.toNat_inj, ← valueOf_orderNumber now, h, valueOf_orderNumber]

/-- Orders are made one after the other, and get the next places in the sequence. -/
inductive Numbered : UInt64 → List Order → UInt64 → Prop
  | nil (count : UInt64) : Numbered count [] count
  | cons {o : Order} {os : List Order} {count last : UInt64} (now : Calendar.Instant)
      (number : o.orderNumber = orderNumber now (count + 1)) (rest : Numbered (count + 1) os last) :
      Numbered count (o :: os) last

namespace Numbered

variable {os os' : List Order} {count middle last : UInt64}

theorem append (h : Numbered count os middle) (h' : Numbered middle os' last) :
    Numbered count (os ++ os') last := by
  induction h with
  | nil => exact h'
  | cons now number _ ih => exact .cons now number (ih h')

/-- As long as the sequence does not begin anew, all places lie behind the first one. -/
theorem lt_of_mem (h : Numbered count os last) (room : count.toNat + os.length < 2 ^ 64) :
    ∀ o ∈ os, ∃ now place, o.orderNumber = orderNumber now place ∧ count.toNat < place.toNat := by
  induction h with
  | nil => exact fun o ho ↦ nomatch ho
  | @cons o os count last now number _ ih =>
    rw [List.length_cons] at room
    have next : (count + 1).toNat = count.toNat + 1 := by
      rw [UInt64.toNat_add, UInt64.toNat_one, Nat.mod_eq_of_lt (by omega)]
    intro o' ho'
    rcases List.mem_cons.mp ho' with rfl | ho'
    · exact ⟨now, count + 1, number, by omega⟩
    · obtain ⟨now', place, number', behind⟩ := ih (by omega) o' ho'
      exact ⟨now', place, number', by omega⟩

/-- As long as the sequence does not begin anew, no number is given twice. -/
theorem nodup (h : Numbered count os last) (room : count.toNat + os.length < 2 ^ 64) :
    (os.map (·.orderNumber)).Nodup := by
  induction h with
  | nil => exact List.nodup_nil
  | @cons o os count last now number rest ih =>
    rw [List.length_cons] at room
    have next : (count + 1).toNat = count.toNat + 1 := by
      rw [UInt64.toNat_add, UInt64.toNat_one, Nat.mod_eq_of_lt (by omega)]
    refine List.nodup_cons.mpr ⟨fun again ↦ ?_, ih (by omega)⟩
    obtain ⟨o', ho', same⟩ := List.mem_map.mp again
    obtain ⟨now', place, number', behind⟩ := rest.lt_of_mem (by omega) o' ho'
    have place_eq : place = count + 1 :=
      count_eq_of_orderNumber_eq (number'.symm.trans (same.trans number))
    rw [place_eq] at behind
    exact Nat.lt_irrefl _ behind

end Numbered

/-! ## Orders that are made -/

/-- From one state to another some orders are made, and all that are there were there before, or are
made. -/
structure Makes (s s' : Store) (os : List Order) : Prop where
  /-- The orders get the next places in the sequence. -/
  numbered : Numbered s.orderCount os s'.orderCount
  /-- An order that is there has the number of one of these orders, or of one that was there. -/
  origin : ∀ o ∈ s'.orders.rows, ∃ o', (o' ∈ s.orders.rows ∨ o' ∈ os) ∧ o'.id = o.id ∧
    o'.orderNumber = o.orderNumber

def makes (s : Store) (stamp : Stamp) : Store.Command → List Order
  | .createOrder r => (s.createOrder stamp r).1.toOption.toList
  | _ => []

namespace Makes

variable {s s' s'' : Store} {os os' : List Order} {o : Order}

/-- No order is made. -/
theorem none (count : s'.orderCount = s.orderCount)
    (origin : ∀ o ∈ s'.orders.rows, ∃ o' ∈ s.orders.rows, o'.id = o.id ∧
      o'.orderNumber = o.orderNumber) : s.Makes s' [] where
  numbered := count ▸ .nil _
  origin o ho := by
    obtain ⟨o', ho', same⟩ := origin o ho
    exact ⟨o', .inl ho', same⟩

/-- Nothing happens to orders. -/
theorem still (orders : s'.orders = s.orders) (count : s'.orderCount = s.orderCount) :
    s.Makes s' [] :=
  .none count fun o ho ↦ ⟨o, orders ▸ ho, rfl, rfl⟩

/-- One order is made. -/
theorem one (now : Calendar.Instant) (number : o.orderNumber = orderNumber now (s.orderCount + 1))
    (orders : s'.orders = s.orders.put o) (count : s'.orderCount = s.orderCount + 1) :
    s.Makes s' [o] where
  numbered := .cons now number (count ▸ .nil _)
  origin o' ho' := by
    rw [orders] at ho'
    rcases Table.mem_put.mp ho' with rfl | ⟨there, -⟩
    · exact ⟨o', .inr List.mem_cons_self, rfl, rfl⟩
    · exact ⟨o', .inl there, rfl, rfl⟩

theorem trans (h : s.Makes s' os) (h' : s'.Makes s'' os') : s.Makes s'' (os ++ os') where
  numbered := h.numbered.append h'.numbered
  origin o ho := by
    obtain ⟨o', there | made, here, number⟩ := h'.origin o ho
    · obtain ⟨o'', origin, here', number'⟩ := h.origin o' there
      refine ⟨o'', origin.imp_right ?_, here'.trans here, number'.trans number⟩
      exact List.mem_append_left _
    · exact ⟨o', .inr (List.mem_append_right _ made), here, number⟩

end Makes

/-- A command makes an order only if it places one. -/
theorem makes_obey (s : Store) (stamp : Stamp) (command : Store.Command) :
    s.Makes (s.obey stamp command) (s.makes stamp command) := by
  cases command with
  | createCustomer r =>
    simp only [obey, makes]
    rcases s.createCustomer_cases stamp r with ⟨f, h⟩ | ⟨-, h⟩ <;> rw [h] <;> exact .still rfl rfl
  | updateCustomer id r =>
    simp only [obey, makes]
    rcases s.updateCustomer_cases stamp id r with
      ⟨f, h⟩ | ⟨c, -, ⟨-, h⟩ | ⟨email, -, -, h⟩⟩ <;> rw [h] <;> exact .still rfl rfl
  | deleteCustomer id =>
    simp only [obey, makes]
    rcases s.deleteCustomer_cases id with ⟨f, h⟩ | ⟨c, -, h⟩ <;> rw [h] <;> exact .still rfl rfl
  | createOrder r =>
    simp only [obey, makes]
    rcases s.createOrder_cases stamp r with ⟨f, h⟩ | ⟨items, c, c', -, -, -, h⟩ <;> rw [h]
    · exact .still rfl rfl
    · exact .one stamp.now rfl rfl rfl
  | moveOrder id status =>
    simp only [obey, makes]
    rcases s.updateOrderStatus_cases stamp id status with ⟨f, h⟩ | ⟨o, found, h⟩ <;> rw [h]
    · exact .still rfl rfl
    · refine .none rfl (Table.forall_put (fun o' ho' ↦ ⟨o', ho', rfl, rfl⟩) ?_)
      exact ⟨o, Table.mem_of_find? found, rfl, rfl⟩
  | deleteOrder id =>
    simp only [obey, makes]
    rcases s.deleteOrder_cases stamp id with
      ⟨f, h⟩ | ⟨o, -, ⟨-, h⟩ | ⟨c, -, h⟩⟩ <;> rw [h]
    · exact .still rfl rfl
    · exact .none rfl (Table.forall_erase fun o' ho' ↦ ⟨o', ho', rfl, rfl⟩)
    · exact .none rfl (Table.forall_erase fun o' ho' ↦ ⟨o', ho', rfl, rfl⟩)

/-- The store after an order has been put into it that does not count for its customer. -/
def enter (s : Store) (o : Order) : Store :=
  { s with orderCount := s.orderCount + 1, orders := s.orders.put o }

/-- Orders that are put one after the other are made. -/
theorem makes_foldl_enter {os : List Order} {last : UInt64} (s : Store)
    (numbered : Numbered s.orderCount os last) : s.Makes (os.foldl enter s) os := by
  generalize hcount : s.orderCount = count at numbered
  induction numbered generalizing s with
  | nil => exact .still rfl rfl
  | @cons o os count last now number _ ih =>
    subst hcount
    have first : s.Makes (s.enter o) [o] := .one now number rfl rfl
    exact first.trans (ih (s.enter o) rfl)

end Store

/-! ## Records for demonstration -/

namespace Demo

variable (now : Calendar.Instant) (ids : Nat → Id) (chance : Chance)

/-- The orders that are added among customers, the first of them behind a place in the sequence. -/
def ordersMade (customers : List Id) : Nat → UInt64 → List Order
  | 0, _ => []
  | n + 1, count =>
    let throws : Chance := fun k ↦ chance (64 * (n + 100) + k)
    match customers[throws 63 % customers.length]? with
    | none => []
    | some customerId =>
      order (ids (n + 100)) customerId (count + 1) now throws ::
        ordersMade customers n (count + 1)

/-- Adding orders puts these one after the other, and no others. -/
theorem addOrders_eq_foldl (customers : List Id) (n : Nat) (s : Store) :
    addOrders now ids chance customers n s =
      (ordersMade now ids chance customers n s.orderCount).foldl Store.enter s := by
  induction n generalizing s with
  | zero => rfl
  | succ n ih =>
    cases named : customers[chance (64 * (n + 100) + 63) % customers.length]? with
    | none =>
      simp only [addOrders, ordersMade, named]
      rfl
    | some customerId =>
      simp only [addOrders, ordersMade, named]
      exact ih _

theorem numbered_ordersMade (customers : List Id) (n : Nat) (count : UInt64) :
    ∃ last, Store.Numbered count (ordersMade now ids chance customers n count) last := by
  induction n generalizing count with
  | zero => exact ⟨count, .nil count⟩
  | succ n ih =>
    simp only [ordersMade]
    split
    · exact ⟨count, .nil count⟩
    · obtain ⟨last, rest⟩ := ih (count + 1)
      exact ⟨last, .cons now rfl rest⟩

/-- Filling the store makes the orders that are added among the customers that were added. -/
theorem makes_seed (admin : User) (s : Store) : s.Makes (seed s now admin ids chance).2
    (ordersMade now ids chance (addCustomers now ids chance 0 names s).1 orderTotal
      s.orderCount) := by
  rw [snd_seed]
  obtain ⟨orders, count⟩ := addCustomers_frame now ids chance 0 names s
  obtain ⟨last, numbered⟩ := numbered_ordersMade now ids chance
    (addCustomers now ids chance 0 names s).1 orderTotal
    (addCustomers now ids chance 0 names s).2.orderCount
  have added := Store.makes_foldl_enter _ numbered
  rw [← addOrders_eq_foldl, count] at added
  have campaigns := sameRecords_addCampaigns now ids admin 0 (themes now)
    (addOrders now ids chance (addCustomers now ids chance 0 names s).1 orderTotal
      (addCustomers now ids chance 0 names s).2)
  have all := (Store.Makes.still orders count).trans
    (added.trans (.still campaigns.orders campaigns.orderCount))
  rwa [List.nil_append, List.append_nil] at all

end Demo

/-! ## Histories -/

namespace Crm

/-- The orders that a deed makes, in the order in which they are made. -/
def Deed.makes (w : Crm) : Deed → List Order
  | .event stamp (.command (.records c)) => w.store.makes stamp c
  | .event _ _ => []
  | .insert _ => []
  | .fill now _ ids chance =>
    Demo.ordersMade now ids chance (Demo.addCustomers now ids chance 0 Demo.names w.store).1
      Demo.orderTotal w.store.orderCount

/-- The orders that a history makes, be they still there or not. -/
def ordersMade (settings : Settings.Campaigns) (w : Crm) : List Deed → List Order
  | [] => []
  | d :: deeds => d.makes w ++ ordersMade settings (w.act settings d) deeds

variable {settings : Settings.Campaigns}

theorem makes_act (w : Crm) (d : Deed) : w.store.Makes (w.act settings d).store (d.makes w) := by
  cases d with
  | event stamp e =>
    have kind := w.records_or_sameRecords settings stamp e
    rcases e with (c | _ | _ | _ | _ | _) | t
    case command.records => exact w.store.makes_obey stamp c
    -- whatever else is done leaves orders as they are
    all_goals
      rcases kind with ⟨c, h, -⟩ | same
      · cases h
      · exact .still same.orders same.orderCount
  | insert c =>
    obtain ⟨orders, count⟩ := w.store.insertCustomer_frame c
    exact .still orders count
  | fill now admin ids chance =>
    rw [store_act_fill]
    exact Demo.makes_seed now ids chance admin w.store

theorem makes_history (w : Crm) (deeds : List Deed) :
    w.store.Makes (w.history settings deeds).store (ordersMade settings w deeds) := by
  induction deeds generalizing w with
  | nil => exact .still rfl rfl
  | cons d deeds ih => exact (makes_act w d).trans (ih _)

/-- In every history from an empty store that makes fewer than 2^64 orders, whatever the clock shows,
no two orders get the same number, be they placed or made for demonstration and be they still there
or not; and every order that is there after it has the number of one of these. -/
theorem orderNumbers_nodup (settings : Settings.Campaigns) (deeds : List Deed)
    (fewer : (ordersMade settings empty deeds).length < 2 ^ 64) :
    ((ordersMade settings empty deeds).map (·.orderNumber)).Nodup ∧
      ∀ o ∈ (empty.history settings deeds).store.orders.rows,
        ∃ o' ∈ ordersMade settings empty deeds, o'.id = o.id ∧ o'.orderNumber = o.orderNumber := by
  obtain ⟨numbered, origin⟩ : Store.empty.Makes _ _ := makes_history empty deeds
  refine ⟨numbered.nodup ?_, fun o ho ↦ ?_⟩
  · rw [Store.empty, UInt64.toNat_zero, Nat.zero_add]
    exact fewer
  · obtain ⟨o', there | made, same⟩ := origin o ho
    · cases there
    · exact ⟨o', made, same⟩

/-- The store is filled for demonstration on the last day before 1970, and afterwards a customer places
two orders, one of which is removed. -/
def ordersOverTheYears : List Deed :=
  .fill ⟨-86400, 0, by decide, by decide, by decide⟩ someone (fun n ↦ ⟨n + 1000⟩) (fun _ ↦ 0) ::
    .creation (tick 1) (newcomer "Ann" "ann@xeno.in") :: ropesForAnn

/-- Of 52 numbers that were given, 51 are still in use. -/
theorem orderNumbers_nodup_ordersOverTheYears :
    (ordersMade .usual empty ordersOverTheYears).length < 2 ^ 64 ∧
      ((ordersMade .usual empty ordersOverTheYears).map (·.orderNumber)).Nodup ∧
      (ordersMade .usual empty ordersOverTheYears).length = 52 ∧
      (empty.history .usual ordersOverTheYears).store.orders.rows.length = 51 := by
  have made : (ordersMade .usual empty ordersOverTheYears).length = 52 := by decide +kernel
  have fewer : (ordersMade .usual empty ordersOverTheYears).length < 2 ^ 64 := by
    rw [made]
    decide
  exact ⟨fewer, (orderNumbers_nodup .usual ordersOverTheYears fewer).1, made, by decide +kernel⟩

end Crm

end Outreach
