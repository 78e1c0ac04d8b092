import Outreach.Proofs.Crm.Run
import Outreach.Proofs.Store.Operations

/-!
# Refusals

A command that is refused changes nothing: neither customers, the index of their addresses, orders
and their numbering, nor campaigns, the audit log and the timers. Consequently the commands that are
refused can be left out of a run.
-/

namespace Outreach

/-- What an operation answers and the state after it, without what it found or made. -/
def Outcome.verdict {σ α : Type} (o : Outcome σ α) : Outcome σ Unit := (o.1.map fun _ ↦ (), o.2)

/-- If the operation was refused, the state is what it was. -/
def Outcome.Harmless {σ α : Type} (s : σ) (o : Outcome σ α) : Prop := ∀ f, o.1 = .error f → o.2 = s

namespace Outcome.Harmless

variable {σ α : Type} {s : σ} {o : Outcome σ α}

/-- An operation is refused at once, or carried out. -/
theorem of_cases (h : (∃ f, o = (.error f, s)) ∨ ∃ a s', o = (.ok a, s')) :
    o.verdict.Harmless s := by
  rcases h with ⟨f, rfl⟩ | ⟨a, s', rfl⟩
  · exact fun _ _ ↦ rfl
  · rintro _ ⟨⟩

end Outcome.Harmless

open Outcome (Harmless)

/-! ## Customers and orders -/

namespace Store

variable (s : Store) (stamp : Stamp)

/-- The answer to a command about customers and orders, and the store after it. -/
def perform : Store.Command → Outcome Store Unit
  | .createCustomer r => (s.createCustomer stamp r).verdict
  | .updateCustomer id r => (s.updateCustomer stamp id r).verdict
  | .deleteCustomer id => (s.deleteCustomer id).verdict
  | .createOrder r => (s.createOrder stamp r).verdict
  | .moveOrder id status => (s.updateOrderStatus stamp id status).verdict
  | .deleteOrder id => (s.deleteOrder stamp id).verdict

theorem perform_snd (c : Store.Command) : (s.perform stamp c).2 = s.obey stamp c := by
  cases c <;> rfl

/-- A command about customers and orders that is refused leaves the store as it was. -/
theorem perform_harmless (c : Store.Command) : (s.perform stamp c).Harmless s := by
  cases c with
  | createCustomer r =>
    refine .of_cases ((s.createCustomer_cases stamp r).imp_right ?_)
    rintro ⟨-, h⟩
    exact ⟨_, _, h⟩
  | updateCustomer id r =>
    refine .of_cases ((s.updateCustomer_cases stamp id r).imp_right ?_)
    rintro ⟨c, -, ⟨-, h⟩ | ⟨email, -, -, h⟩⟩ <;> exact ⟨_, _, h⟩
  | deleteCustomer id =>
    refine .of_cases ((s.deleteCustomer_cases id).imp_right ?_)
    rintro ⟨c, -, h⟩
    exact ⟨_, _, h⟩
  | createOrder r =>
    refine .of_cases ((s.createOrder_cases stamp r).imp_right ?_)
    rintro ⟨items, c, c', -, -, -, h⟩
    exact ⟨_, _, h⟩
  | moveOrder id status =>
    refine .of_cases ((s.updateOrderStatus_cases stamp id status).imp_right ?_)
    rintro ⟨o, -, h⟩
    exact ⟨_, _, h⟩
  | deleteOrder id =>
    refine .of_cases ((s.deleteOrder_cases stamp id).imp_right ?_)
    rintro ⟨o, -, ⟨-, h⟩ | ⟨c, -, h⟩⟩ <;> exact ⟨_, _, h⟩

end Store

/-! ## All commands -/

namespace Crm

variable (settings : Settings.Campaigns) (w : Crm) (stamp : Stamp)

/-- The answer to a command, and the state after it. -/
def perform : Command → Outcome Crm Unit
  | .records c =>
    let o := w.store.perform stamp c
    (o.1, { w with store := o.2 })
  | .create user r => (w.createCampaign stamp user r).verdict
  | .update user id r => (w.updateCampaign stamp user id r).verdict
  | .delete user id => (w.deleteCampaign stamp user id).verdict
  | .start user id => (w.startCampaign settings stamp user id).verdict
  | .pause user id => (w.pauseCampaign stamp user id).verdict

theorem perform_snd (c : Command) : (w.perform settings stamp c).2 = w.obey settings stamp c := by
  cases c with
  | records c => exact congrArg (fun s ↦ { w with store := s }) (w.store.perform_snd stamp c)
  | _ => rfl

/-- A command that is refused leaves everything as it was. -/
theorem perform_harmless (c : Command) : (w.perform settings stamp c).Harmless w := by
  cases c with
  | records c =>
    intro f refused
    have same := w.store.perform_harmless stamp c f refused
    exact congrArg (fun s ↦ { w with store := s }) same
  | create user r =>
    refine .of_cases ((w.createCampaign_cases stamp user r).imp_right ?_)
    exact fun h ↦ ⟨_, _, h⟩
  | update user id r =>
    refine .of_cases ((w.updateCampaign_cases stamp user id r).imp_right ?_)
    rintro ⟨c, -, -, -, h⟩
    exact ⟨_, _, h⟩
  | delete user id =>
    refine .of_cases ((w.deleteCampaign_cases stamp user id).imp_right ?_)
    rintro ⟨c, -, -, h⟩
    exact ⟨_, _, h⟩
  | start user id =>
    refine .of_cases ((w.startCampaign_cases settings stamp user id).imp_right ?_)
    rintro ⟨c, run, -, -, -, h⟩
    exact ⟨_, _, h⟩
  | pause user id =>
    refine .of_cases ((w.pauseCampaign_cases stamp user id).imp_right ?_)
    rintro ⟨c, -, -, h⟩
    exact ⟨_, _, h⟩

/-- In every state, whatever is asked: if it is refused, for any reason, the state after it is the
state before it, all records, the numbering of orders, the audit log and the timers included. -/
theorem refusal_changes_nothing (c : Command) (f : Fault)
    (refused : (w.perform settings stamp c).1 = .error f) :
    (w.perform settings stamp c).2 = w :=
  w.perform_harmless settings stamp c f refused

/-- A customer and a campaign have been made, and the campaign has been started. -/
def atWork : Crm :=
  Crm.empty.run .usual
    [(tick 1, .command (.records (.createCustomer (newcomer "Ann" "ann@xeno.in")))),
      (tick 2, .command (.create someone offer)), (tick 3, .command (.start someone ⟨2⟩))]

/-- A request for the address of the customer who is there. -/
def namesake : Command := .records (.createCustomer (newcomer "Anna" " ANN@xeno.in"))

theorem refusal_changes_nothing_atWork :
    (atWork.perform .usual (tick 4) namesake).1 = .error .emailTaken ∧
      (atWork.perform .usual (tick 4) namesake).2 = atWork ∧
      (atWork.perform .usual (tick 4) (.delete someone ⟨2⟩)).1 = .error .cannotDelete ∧
      (atWork.perform .usual (tick 4) (.delete someone ⟨2⟩)).2 = atWork := by
  have taken : (atWork.perform .usual (tick 4) namesake).1 = .error .emailTaken := by decide +kernel
  have running : (atWork.perform .usual (tick 4) (.delete someone ⟨2⟩)).1 = .error .cannotDelete := by
    decide +kernel
  exact ⟨taken, refusal_changes_nothing .usual atWork (tick 4) _ _ taken,
    running, refusal_changes_nothing .usual atWork (tick 4) _ _ running⟩

/-! ## Runs without refusals -/

def refuses (stamp : Stamp) : Event → Bool
  | .command c => !(w.perform settings stamp c).1.isOk
  | .timer _ => false

/-- What is refused could as well not have happened. -/
theorem after_of_refuses (e : Event) (h : w.refuses settings stamp e = true) :
    w.after settings stamp e = w := by
  cases e with
  | timer t => cases h
  | command c =>
    cases refused : (w.perform settings stamp c).1 with
    | ok _ => simp [refuses, refused, Except.isOk, Except.toBool] at h
    | error f =>
      rw [after, ← w.perform_snd settings]
      exact w.perform_harmless settings stamp c f refused

/-- The events of a run without what is refused. -/
def accepted (w : Crm) : List (Stamp × Event) → List (Stamp × Event)
  | [] => []
  | e :: es =>
    let rest := accepted (w.after settings e.1 e.2) es
    if w.refuses settings e.1 e.2 then rest else e :: rest

/-- A run without what is refused leads to the same state. -/
theorem run_accepted (es : List (Stamp × Event)) :
    w.run settings (w.accepted settings es) = w.run settings es := by
  induction es generalizing w with
  | nil => rfl
  | cons e es ih =>
    rw [accepted, run_cons]
    split
    · next h =>
      rw [w.after_of_refuses settings e.1 e.2 h, ih]
    · rw [run_cons, ih]

end Crm

end Outreach
