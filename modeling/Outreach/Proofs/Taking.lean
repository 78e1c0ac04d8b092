import Outreach.Text.Scan

/-!
# Taking from what is left

Texts are read, and fields of records, by computations that take something from what is left and may
refuse. What such a computation does on one input is told part by part: what each part takes, and
what it leaves for the next.
-/

namespace Outreach

variable {σ α β : Type}

/-- A computation takes a value from a state and leaves another state. -/
def Takes (f : StateT σ Option α) (s : σ) (a : α) (rest : σ) : Prop := f s = some (a, rest)

namespace Takes

variable {f : StateT σ Option α} {g : α → StateT σ Option β} {s s' s'' : σ} {a : α} {b : β}

theorem pure (a : α) (s : σ) : Takes (Pure.pure a : StateT σ Option α) s a s := rfl

/-- What follows what has been taken goes on with what is left. -/
theorem bind_eq (first : Takes f s a s') : (f >>= g) s = g a s' := by
  show (f s).bind (fun r ↦ g r.1 r.2) = _
  rw [first]
  rfl

/-- One after the other. -/
theorem bind (first : Takes f s a s') (second : Takes (g a) s' b s'') : Takes (f >>= g) s b s'' :=
  first.bind_eq.trans second

/-- The last step makes a value of what has been taken. -/
theorem map (first : Takes f s a s') (h : α → β) :
    Takes (f >>= fun a ↦ Pure.pure (h a)) s (h a) s' := first.bind (pure _ _)

end Takes

/-- A computation takes nothing from a state. -/
def Refuses (f : StateT σ Option α) (s : σ) : Prop := f s = none

namespace Refuses

variable {f : StateT σ Option α} {g : α → StateT σ Option β} {s s' : σ} {a : α}

/-- What is refused is not followed by anything. -/
theorem bind (h : Refuses f s) : Refuses (f >>= g) s := by
  show (f s).bind (fun r ↦ g r.1 r.2) = none
  rw [h]
  rfl

/-- A refusal behind what is taken is one of the whole. -/
theorem behind (first : Takes f s a s') (second : Refuses (g a) s') : Refuses (f >>= g) s :=
  first.bind_eq.trans second

end Refuses

namespace Text.Scan

variable {ok : Char → Bool} {c : Char} {cs ds : List Char}

/-- A text does not begin with a character of some sort. -/
def Stops (ok : Char → Bool) (cs : List Char) : Prop := ∀ c, cs.head? = some c → ok c = false

theorem stops_cons : Stops ok (c :: cs) ↔ ok c = false := by simp [Stops]

/-- A text taken as a whole by a reader is what the reader takes. -/
theorem all?_of_takes {s : Scan α} {a : α} (h : Takes s cs a []) : s.all? cs = some a := by
  unfold all?
  rw [h]

/-- A text refused by a reader is not taken as a whole either. -/
theorem all?_of_refuses {s : Scan α} (h : Refuses s cs) : s.all? cs = none := by
  unfold all?
  rw [h]

theorem char_takes (c : Char) (cs : List Char) : Takes (char c) (c :: cs) () cs := if_pos rfl

theorem next_takes (h : ok c = true) : Takes (next ok) (c :: cs) c cs := if_pos h

/-- A character that will do is taken. -/
theorem optional_takes (h : ok c = true) : Takes (optional ok) (c :: cs) true cs := by
  simp [Takes, optional, h]

/-- Where none will do, none is taken. -/
theorem optional_takes_none (h : Stops ok cs) : Takes (optional ok) cs false cs := by
  cases cs with
  | nil => rfl
  | cons c cs => simp [Takes, optional, stops_cons.mp h]

/-- Characters are taken as far as they will do. -/
theorem takeWhile_takes (all : ∀ c ∈ ds, ok c = true) (stop : Stops ok cs) :
    Takes (takeWhile ok) (ds ++ cs) ds cs := by
  have front : cs.takeWhile ok = [] ∧ cs.dropWhile ok = cs := by
    cases cs with
    | nil => exact ⟨rfl, rfl⟩
    | cons c cs => simp [stops_cons.mp stop]
  rw [Takes, takeWhile, List.takeWhile_append_of_pos all, List.dropWhile_append_of_pos all, front.1,
    front.2, List.append_nil]

end Text.Scan

end Outreach
