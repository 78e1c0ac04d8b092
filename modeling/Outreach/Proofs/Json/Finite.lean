import Outreach.Json.Reader
import Outreach.Proofs.Decimal.Whole
import Outreach.Proofs.Json.Records

/-!
# Finite numbers

The numbers in a value that has been read from a text are finite. A literal beyond all doubles is kept
as one that denotes nothing, so no infinity comes from it, and nothing else makes numbers.
-/

namespace Outreach

namespace Json

open Text Text.Scan

/-! ## Values -/

def Number.IsFinite : Number → Prop
  | .real x => x.isFinite = true
  | _ => True

/-- All numbers in the value are finite. -/
inductive IsFinite : Json → Prop
  | null : IsFinite .null
  | bool (b : Bool) : IsFinite (.bool b)
  | number {n : Number} (h : n.IsFinite) : IsFinite (.number n)
  | text (s : String) : IsFinite (.text s)
  | array {items : List Json} (h : ∀ j ∈ items, IsFinite j) : IsFinite (.array items)
  | object {entries : List (String × Json)} (h : ∀ e ∈ entries, IsFinite e.2) :
      IsFinite (.object entries)
  | unreadable : IsFinite .unreadable

variable {j : Json} {es : List (String × Json)} {x : Float}

/-- A finite number of any form is read as a finite double. -/
theorem IsFinite.float? (h : j.IsFinite) (read : j.float? = some x) : x.isFinite = true := by
  cases h with
  | @number n h =>
    cases n with
    | natural n =>
      cases read
      exact Decimal.isFinite_toFloat n
    | negative m =>
      cases read
      exact Decimal.isFinite_neg (Decimal.isFinite_toFloat m)
    | real y =>
      cases read
      exact h
  | _ => cases read

/-- What is given for a field of a record is part of the record. -/
theorem IsFinite.given? {names : List String} {name : String} {i : Json} (h : j.IsFinite)
    (given : j.given? names name = some i) : i.IsFinite := by
  have inside := mem_of_given? given
  cases h with
  | array h => exact h i (List.of_mem_zip inside).2
  | object h => exact h _ inside
  | _ => cases inside

/-! ## Entries by name alone -/

theorem finite_putEntry {e : String × Json} (he : e.2.IsFinite) (h : ∀ e ∈ es, e.2.IsFinite) :
    ∀ e' ∈ putEntry e es, e'.2.IsFinite := by
  induction es with
  | nil => simpa [putEntry] using he
  | cons d es ih =>
    have rest : ∀ e ∈ es, e.2.IsFinite := fun e he ↦ h e (List.mem_cons_of_mem _ he)
    unfold putEntry
    split
    · exact List.forall_mem_cons.mpr ⟨he, rest⟩
    · exact List.forall_mem_cons.mpr ⟨h d List.mem_cons_self, ih rest⟩

mutual

theorem IsFinite.collapse {j : Json} (h : j.IsFinite) : j.collapse.IsFinite := by
  cases h with
  | array h => exact .array (finite_collapseItems h)
  | object h => exact .object (finite_collapseEntries nofun h)
  | null => exact .null
  | bool b => exact .bool b
  | number h => exact .number h
  | text s => exact .text s
  | unreadable => exact .unreadable

theorem finite_collapseItems {items : List Json} (h : ∀ j ∈ items, j.IsFinite) :
    ∀ j ∈ collapseItems items, j.IsFinite := by
  match items with
  | [] => exact nofun
  | j :: items =>
    obtain ⟨first, rest⟩ := List.forall_mem_cons.mp h
    exact List.forall_mem_cons.mpr ⟨first.collapse, finite_collapseItems rest⟩

theorem finite_collapseEntries {done entries : List (String × Json)}
    (before : ∀ e ∈ done, e.2.IsFinite) (h : ∀ e ∈ entries, e.2.IsFinite) :
    ∀ e ∈ collapseEntries done entries, e.2.IsFinite := by
  match entries with
  | [] => exact before
  | (name, j) :: entries =>
    obtain ⟨first, rest⟩ := List.forall_mem_cons.mp h
    have put := finite_putEntry (e := (name, j.collapse)) first.collapse before
    show ∀ e ∈ collapseEntries (putEntry (name, j.collapse) done) entries, e.2.IsFinite
    exact finite_collapseEntries put rest

end

/-! ## Reading texts -/

/-- Whatever a reader makes has a property. -/
def Makes {α : Type} (P : α → Prop) (s : Scan α) : Prop := ∀ cs a rest, Takes s cs a rest → P a

section Makes

variable {α β : Type} {P : α → Prop} {Q : β → Prop} {s : Scan α}

theorem makes_pure {a : α} (h : P a) : Makes P (pure a : Scan α) := by
  rintro cs _ _ ⟨⟩
  exact h

theorem makes_failure : Makes P (failure : Scan α) := by
  rintro cs a rest ⟨⟩

theorem Makes.bind {g : α → Scan β} (first : Makes P s) (second : ∀ a, P a → Makes Q (g a)) :
    Makes Q (s >>= g) := by
  intro cs b rest taken
  change (s cs).bind (fun r ↦ g r.1 r.2) = some (b, rest) at taken
  obtain ⟨⟨a, behind⟩, front, back⟩ := Option.bind_eq_some_iff.mp taken
  exact second a (first cs a behind front) behind b rest back

/-- Where it does not matter what the first reader makes. -/
theorem makes_bind {g : α → Scan β} (second : ∀ a, Makes Q (g a)) : Makes Q (s >>= g) :=
  Makes.bind (P := fun _ ↦ True) (fun _ _ _ _ ↦ trivial) fun a _ ↦ second a

/-- So it is with what is made of a whole text. -/
theorem Makes.all? {cs : List Char} {a : α} (h : Makes P s) (taken : s.all? cs = some a) : P a := by
  unfold Scan.all? at taken
  split at taken
  · next whole =>
    cases taken
    exact h cs _ _ whole
  · cases taken

end Makes

/-- What is scaled is finite, or there is nothing. -/
theorem isFinite_of_scaled? {n : Nat} {exponent : Int} (scaled : scaled? n exponent = some x) :
    x.isFinite = true := by
  rw [scaled?] at scaled
  obtain ⟨finite, same⟩ := Option.ite_none_right_eq_some.mp scaled
  exact Option.some.inj same ▸ finite

theorem finite_of_number? {minus : Bool} {whole fraction : List Char} {exponent : Option Int}
    {n : Number} (read : number? minus whole fraction exponent = some n) : n.IsFinite := by
  simp only [number?] at read
  split at read
  · cases read
    split <;> exact trivial
  · obtain ⟨x, scaled, rfl⟩ := Option.map_eq_some_iff.mp read
    have finite := isFinite_of_scaled? scaled
    cases minus with
    | false => exact finite
    | true => exact Decimal.isFinite_neg finite

theorem finite_numeral : Makes IsFinite numeral := by
  refine makes_bind fun minus ↦ makes_bind fun whole ↦ makes_bind fun fraction ↦ makes_bind fun e ↦ ?_
  refine makes_pure ?_
  cases read : number? minus whole fraction e with
  | none => exact .unreadable
  | some n => exact .number (finite_of_number? read)

mutual

theorem finite_value (fuel : Nat) : Makes IsFinite (value fuel) := by
  match fuel with
  | 0 => exact makes_failure
  | fuel + 1 =>
    unfold value
    refine makes_bind fun _ ↦ makes_bind fun c ↦ ?_
    split
    · exact makes_bind fun _ ↦ makes_pure .null
    · exact makes_bind fun _ ↦ makes_pure (.bool true)
    · exact makes_bind fun _ ↦ makes_pure (.bool false)
    · refine makes_bind fun _ ↦ makes_bind fun s ↦ ?_
      split
      · next s => exact makes_pure (.text s)
      · exact makes_pure .unreadable
    · refine makes_bind fun _ ↦ makes_bind fun _ ↦ makes_bind fun c ↦ ?_
      split
      · exact makes_bind fun _ ↦ makes_pure (.array nofun)
      · exact (finite_items fuel).bind fun js finite ↦ makes_pure (.array finite)
    · refine makes_bind fun _ ↦ makes_bind fun _ ↦ makes_bind fun c ↦ ?_
      split
      · exact makes_bind fun _ ↦ makes_pure (.object nofun)
      · refine (finite_entries fuel).bind fun es? finite ↦ ?_
        split
        · next es => exact makes_pure (.object (finite es rfl))
        · exact makes_pure .unreadable
    · exact finite_numeral

theorem finite_items (fuel : Nat) : Makes (fun js ↦ ∀ j ∈ js, IsFinite j) (items fuel) := by
  match fuel with
  | 0 => exact makes_failure
  | fuel + 1 =>
    unfold items
    refine (finite_value fuel).bind fun j first ↦ makes_bind fun _ ↦ makes_bind fun more ↦ ?_
    split
    · exact (finite_items fuel).bind fun js rest ↦ makes_pure (List.forall_mem_cons.mpr ⟨first, rest⟩)
    · exact makes_bind fun _ ↦ makes_pure (List.forall_mem_singleton.mpr first)

theorem finite_entries (fuel : Nat) :
    Makes (fun es? ↦ ∀ es, es? = some es → ∀ e ∈ es, e.2.IsFinite) (entries fuel) := by
  match fuel with
  | 0 => exact makes_failure
  | fuel + 1 =>
    unfold entries
    refine makes_bind fun _ ↦ makes_bind fun _ ↦ makes_bind fun name ↦ makes_bind fun _ ↦ ?_
    refine makes_bind fun _ ↦ (finite_value fuel).bind fun j first ↦ makes_bind fun _ ↦ ?_
    refine makes_bind fun more ↦ ?_
    split
    · refine (finite_entries fuel).bind fun es? rest ↦ makes_pure fun es made ↦ ?_
      obtain ⟨e, front, made⟩ := Option.bind_eq_some_iff.mp made
      obtain ⟨name, -, rfl⟩ := Option.map_eq_some_iff.mp front
      obtain ⟨es, behind, rfl⟩ := Option.map_eq_some_iff.mp made
      exact List.forall_mem_cons.mpr ⟨first, rest es behind⟩
    · refine makes_bind fun _ ↦ makes_pure fun es made ↦ ?_
      obtain ⟨e, front, rfl⟩ := Option.map_eq_some_iff.mp made
      obtain ⟨name, -, rfl⟩ := Option.map_eq_some_iff.mp front
      exact List.forall_mem_singleton.mpr first

end

/-- The numbers in the value at the beginning of a text are finite. -/
theorem finite_leading? {s : String} (read : leading? s = some j) : j.IsFinite := by
  obtain ⟨⟨j, rest⟩, taken, rfl⟩ := Option.map_eq_some_iff.mp read
  exact finite_value _ _ _ _ taken

/-- The numbers in the value that a text is are finite. -/
theorem finite_ofLine? {s : String} (read : ofLine? s = some j) : j.IsFinite := by
  obtain ⟨i, whole, plain⟩ := Option.bind_eq_some_iff.mp read
  have finite : i.IsFinite := by
    refine Makes.all? ?_ whole
    exact (finite_value _).bind fun j finite ↦ makes_bind fun _ ↦ makes_pure finite
  obtain ⟨-, -, last⟩ := Option.bind_eq_some_iff.mp plain
  cases last
  exact finite.collapse

end Json

end Outreach
