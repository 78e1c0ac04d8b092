import Mathlib.Data.List.Induction
import Outreach.Proofs.Store.Visits

/-!
# Delivered orders

An order that is there is the record with which it was placed, as the moves since then have left it. A
move to "delivered" keeps the time; placing an order keeps none, whatever status it is placed with. So
the delivered orders without a date of delivery are those that were placed as delivered and that nobody
has moved.
-/

namespace Outreach

open Calendar

/-! ## Moves of one order -/

namespace Order

variable {o : Order} {moves : List (Instant × Status)}

/-- The record after moves, each at its time. -/
def afterMoves (o : Order) (moves : List (Instant × Status)) : Order :=
  moves.foldl (fun o m ↦ Store.moved o m.2 m.1) o

/-- The times of the moves to "delivered". -/
def deliveries (moves : List (Instant × Status)) : List Instant :=
  (moves.filter (·.2 = .delivered)).map (·.1)

theorem afterMoves_append (o : Order) (moves moves' : List (Instant × Status)) :
    o.afterMoves (moves ++ moves') = (o.afterMoves moves).afterMoves moves' := List.foldl_append

@[simp] theorem id_afterMoves : (o.afterMoves moves).id = o.id := by
  induction moves generalizing o with
  | nil => rfl
  | cons m moves ih => exact ih

/-- The date of delivery is the time of the last delivery, if there was one. -/
theorem deliveryDate_afterMoves :
    (o.afterMoves moves).deliveryDate = (deliveries moves).getLast?.or o.deliveryDate := by
  induction moves using List.reverseRecOn with
  | nil => rfl
  | append_singleton moves m ih =>
    have last : (o.afterMoves (moves ++ [m])).deliveryDate =
        if m.2 = .delivered then some m.1 else (o.afterMoves moves).deliveryDate := by
      rw [afterMoves_append]
      rfl
    rw [last, ih, deliveries, deliveries, List.filter_append, List.map_append]
    by_cases delivered : m.2 = .delivered
    · simp [delivered]
    · simp [delivered]

/-- Where nothing is known of a delivery at first, a delivered order is without a date of delivery
exactly if it was delivered at first and has not been moved. -/
theorem undated_afterMoves_iff (undated : o.deliveryDate = none)
    (delivered : (o.afterMoves moves).status = .delivered) :
    (o.afterMoves moves).deliveryDate = none ↔ o.status = .delivered ∧ moves = [] := by
  constructor
  · induction moves using List.reverseRecOn with
    | nil => exact fun _ ↦ ⟨delivered, rfl⟩
    | append_singleton moves m ih =>
      intro none
      -- the last move decides about the status, so it was one to "delivered"
      rw [afterMoves_append] at delivered none
      have moved : m.2 = .delivered := delivered
      have dated : ((o.afterMoves moves).afterMoves [m]).deliveryDate = some m.1 := if_pos moved
      rw [dated] at none
      cases none
  · rintro ⟨-, rfl⟩
    exact undated

end Order

/-! ## Moves that are asked for -/

namespace Crm

variable {settings : Settings.Campaigns} {w : Crm} {stamp : Stamp} {o : Order}

/-- The moves of an order that are asked for, with their times. -/
def movesOf (id : Id) (events : List (Stamp × Event)) : List (Instant × Order.Status) :=
  events.filterMap fun
    | (stamp, .command (.records (.moveOrder key status))) =>
      if key = id then some (stamp.now, status) else none
    | _ => none

theorem movesOf_append (id : Id) (es fs : List (Stamp × Event)) :
    movesOf id (es ++ fs) = movesOf id es ++ movesOf id fs := List.filterMap_append

/-- An order is placed by an event. -/
def placing (stamp : Stamp) (r : Order.New) : Stamp × Event :=
  (stamp, .command (.records (.createOrder r)))

/-- What an event asks of an order is no more than one move. -/
theorem movesOf_moveOrder (id key : Id) (status : Order.Status) :
    movesOf id [(stamp, .command (.records (.moveOrder key status)))] =
      if key = id then [(stamp.now, status)] else [] := by
  by_cases here : key = id <;> simp [movesOf, here]

/-- An order that is there after a move has been asked for was there before, and is moved if the move
is one of this order. -/
theorem mem_moveOrder {s : Store} {key : Id} {status : Order.Status}
    (h : o ∈ (s.obey stamp (.moveOrder key status)).orders.rows) :
    ∃ o' ∈ s.orders.rows, o'.id = o.id ∧
      o = o'.afterMoves (movesOf o.id [(stamp, .command (.records (.moveOrder key status)))]) := by
  rw [movesOf_moveOrder]
  simp only [Store.obey, Store.updateOrderStatus] at h
  cases found : s.orders.find? key with
  | none =>
    rw [found] at h
    have other : key ≠ o.id := (Table.find?_eq_none_iff.mp found o h).symm
    exact ⟨o, h, rfl, by rw [if_neg other]; rfl⟩
  | some o' =>
    have here : o'.id = key := Table.key_of_find? found
    rw [found] at h
    rcases Table.mem_put.mp h with moved | ⟨there, other⟩
    · have same : o'.id = o.id := by rw [moved]
      refine ⟨o', Table.mem_of_find? found, same, ?_⟩
      rw [if_pos (here.symm.trans same)]
      exact moved
    · have apart : key ≠ o.id := fun same ↦ other (same.symm.trans here.symm)
      exact ⟨o, there, rfl, by rw [if_neg apart]; rfl⟩

/-- An order that is there after an event has been placed by it, or it was there before and has been
moved as the event asks. -/
theorem placed_or_moved (e : Event) (h : o ∈ (w.after settings stamp e).store.orders.rows) :
    (∃ r items count, (stamp, e) = placing stamp r ∧ o = Store.newOrder r items stamp count) ∨
      ∃ o' ∈ w.store.orders.rows, o'.id = o.id ∧ o = o'.afterMoves (movesOf o.id [(stamp, e)]) := by
  have kind := w.records_or_sameRecords settings stamp e
  rcases e with (c | _ | _ | _ | _ | _) | t
  case command.records =>
    have origin := w.store.origin_obey stamp c o h
    cases c with
    | moveOrder key status => exact .inr (mem_moveOrder h)
    | createOrder r =>
      cases origin with
      | kept _ there => exact .inr ⟨o, there, rfl, rfl⟩
      | made _ _ _ => exact .inl ⟨r, _, _, rfl, rfl⟩
    | _ =>
      cases origin with
      | kept _ there => exact .inr ⟨o, there, rfl, rfl⟩
  -- whatever else happens leaves orders as they are
  all_goals
    rcases kind with ⟨c, other, -⟩ | same
    · cases other
    · rw [same.orders] at h
      exact .inr ⟨o, h, rfl, rfl⟩

/-- An order that is there after a run is the record with which it was placed, as the moves that were
asked for since then have left it. -/
theorem placed_and_moved (settings : Settings.Campaigns) (events : List (Stamp × Event)) :
    ∀ o ∈ (empty.run settings events).store.orders.rows, ∃ before stamp r items count after,
      events = before ++ placing stamp r :: after ∧
        o = (Store.newOrder r items stamp count).afterMoves (movesOf o.id after) := by
  induction events using List.reverseRecOn with
  | nil =>
    intro o ho
    cases ho
  | append_singleton events e ih =>
    intro o ho
    rw [run_append] at ho
    rcases placed_or_moved e.2 ho with ⟨r, items, count, event, made⟩ | ⟨o', there, here, moved⟩
    · exact ⟨events, e.1, r, items, count, [], by rw [← event], made⟩
    · obtain ⟨before, stamp, r, items, count, after, rfl, told⟩ := ih o' there
      refine ⟨before, stamp, r, items, count, after ++ [e], by simp, ?_⟩
      rw [movesOf_append, Order.afterMoves_append, ← here, ← told, here]
      exact moved

/-! ## Dates of delivery -/

/-- In every state that a run leads to, an order has the time of the last move to "delivered" since it
was placed as its date of delivery, and none if there was no such move. So a delivered order is without
a date exactly if it was placed as delivered and has not been moved; and if no order is placed as
delivered, every delivered order has a date. -/
theorem deliveries_dated (settings : Settings.Campaigns) (events : List (Stamp × Event)) :
    let orders := (empty.run settings events).store.orders.rows
    (∀ o ∈ orders, ∃ before stamp r after,
      events = before ++ placing stamp r :: after ∧ stamp.id = o.id ∧
        o.deliveryDate = (Order.deliveries (movesOf o.id after)).getLast? ∧
        (o.status = .delivered →
          (o.deliveryDate = none ↔ r.status = .delivered ∧ movesOf o.id after = []))) ∧
    ((∀ stamp r, placing stamp r ∈ events → r.status ≠ .delivered) →
      ∀ o ∈ orders, o.status = .delivered → ∃ t, o.deliveryDate = some t) := by
  intro orders
  have dates : ∀ o ∈ orders, ∃ before stamp r after,
      events = before ++ placing stamp r :: after ∧ stamp.id = o.id ∧
        o.deliveryDate = (Order.deliveries (movesOf o.id after)).getLast? ∧
        (o.status = .delivered →
          (o.deliveryDate = none ↔ r.status = .delivered ∧ movesOf o.id after = [])) := by
    intro o ho
    obtain ⟨before, stamp, r, items, count, after, whole, told⟩ := placed_and_moved settings events o ho
    have here : stamp.id = o.id := by
      rw [told, Order.id_afterMoves]
      rfl
    have date := congrArg Order.deliveryDate told
    rw [Order.deliveryDate_afterMoves] at date
    refine ⟨before, stamp, r, after, whole, here, date.trans (Option.or_none ..), fun delivered ↦ ?_⟩
    have last : ((Store.newOrder r items stamp count).afterMoves (movesOf o.id after)).status =
        .delivered := told ▸ delivered
    have undated := Order.undated_afterMoves_iff rfl last
    rw [← told] at undated
    exact undated
  refine ⟨dates, fun none o ho delivered ↦ ?_⟩
  obtain ⟨before, stamp, r, after, whole, -, -, undated⟩ := dates o ho
  have other : r.status ≠ .delivered := none stamp r (by simp [whole])
  exact Option.ne_none_iff_exists'.mp fun undelivered ↦ other ((undated delivered).mp undelivered).1

/-- A customer places an order, which is delivered, sent back and delivered again. -/
def ropesSentTwice : List (Stamp × Event) :=
  [(tick 1, .command (.records (.createCustomer (newcomer "Ann" "ann@xeno.in")))),
    placing (tick 2) (twoRopes ⟨1⟩),
    (tick 3, .command (.records (.moveOrder ⟨2⟩ .delivered))),
    (tick 4, .command (.records (.moveOrder ⟨2⟩ .confirmed))),
    (tick 5, .command (.records (.moveOrder ⟨2⟩ .delivered)))]

theorem deliveries_dated_ropesSentTwice :
    (∀ stamp r, placing stamp r ∈ ropesSentTwice → r.status ≠ .delivered) ∧
      ∃ o ∈ (empty.run .usual ropesSentTwice).store.orders.rows, o.status = .delivered ∧
        ∃ t, o.deliveryDate = some t := by
  have pending : ∀ stamp r, placing stamp r ∈ ropesSentTwice → r.status ≠ .delivered := by
    intro stamp r h
    simp only [ropesSentTwice, placing, List.mem_cons, List.not_mem_nil, Prod.mk.injEq,
      Event.command.injEq, Command.records.injEq, reduceCtorEq, Store.Command.createOrder.injEq,
      and_false, or_false, false_or] at h
    rw [h.2]
    decide
  have stored : ((empty.run .usual ropesSentTwice).store.orders.find? ⟨2⟩).map (·.status) =
      some .delivered := by decide +kernel
  obtain ⟨o, found, delivered⟩ := Option.map_eq_some_iff.mp stored
  have ho := Table.mem_of_find? found
  obtain ⟨-, dated⟩ := deliveries_dated .usual ropesSentTwice
  exact ⟨pending, o, ho, delivered, dated pending o ho delivered⟩

/-- An order that is placed as delivered has no date of delivery. -/
theorem placed_delivered_undated :
    let ropes := { twoRopes ⟨1⟩ with status := .delivered }
    ∃ o ∈ (empty.run .usual [(tick 1, .command (.records (.createCustomer
        (newcomer "Ann" "ann@xeno.in")))), placing (tick 2) ropes]).store.orders.rows,
      o.status = .delivered ∧ o.deliveryDate = none := by
  intro ropes
  have stored : ((empty.run .usual [(tick 1, .command (.records (.createCustomer
      (newcomer "Ann" "ann@xeno.in")))), placing (tick 2) ropes]).store.orders.find? ⟨2⟩).map
        (fun o ↦ (o.status, o.deliveryDate)) = some (.delivered, none) := by decide +kernel
  obtain ⟨o, found, record⟩ := Option.map_eq_some_iff.mp stored
  exact ⟨o, Table.mem_of_find? found, congrArg Prod.fst record, congrArg Prod.snd record⟩

end Crm

end Outreach
