/-!
# Tables

Records that are found by a key. No two records of a table have the same key; new records are put
behind the others, and a record that replaces another takes its place.
-/

namespace Outreach

variable {κ α : Type} {key : α → κ}

/-- Records with different keys. -/
@[ext]
structure Table (key : α → κ) where
  /-- The records, in the order in which their keys came. -/
  rows : List α
  nodup : (rows.map key).Nodup

namespace Table

def empty (key : α → κ) : Table key := ⟨[], by simp⟩

instance : Inhabited (Table key) := ⟨empty key⟩

def size (t : Table key) : Nat := t.rows.length

def filter (t : Table key) (p : α → Bool) : Table key :=
  ⟨t.rows.filter p, t.nodup.sublist (List.filter_sublist.map key)⟩

@[simp] theorem rows_empty : (empty key).rows = [] := rfl
@[simp] theorem rows_filter (t : Table key) (p : α → Bool) :
    (t.filter p).rows = t.rows.filter p := rfl

variable [DecidableEq κ]

def find? (t : Table key) (k : κ) : Option α := t.rows.find? fun a ↦ key a = k

/-- There is a record with a key. -/
def contains (t : Table key) (k : κ) : Bool := (t.find? k).isSome

/-- The record put in place of the one with its key, or else behind the others. -/
def putRow (key : α → κ) (a : α) : List α → List α
  | [] => [a]
  | b :: bs => if key b = key a then a :: bs else b :: putRow key a bs

theorem map_putRow (a : α) (rows : List α) :
    (putRow key a rows).map key =
      if key a ∈ rows.map key then rows.map key else rows.map key ++ [key a] := by
  induction rows with
  | nil => simp [putRow]
  | cons b bs ih =>
    by_cases h : key b = key a
    · simp [putRow, h]
    · have h' : ¬key a = key b := fun e ↦ h e.symm
      simp only [putRow, if_neg h, List.map_cons, ih, List.mem_cons, h', false_or]
      split <;> simp

/-- Put a record in place of the one with its key, or else behind the others. -/
def put (t : Table key) (a : α) : Table key :=
  ⟨putRow key a t.rows, by
    rw [map_putRow]
    split
    · exact t.nodup
    · next h =>
      rw [List.nodup_append]
      refine ⟨t.nodup, by simp, fun x hx y hy e ↦ h ?_⟩
      rw [List.mem_singleton] at hy
      rw [← hy, ← e]
      exact hx⟩

/-- Take the record with a key out. -/
def erase (t : Table key) (k : κ) : Table key := t.filter fun a ↦ key a != k

/-- The table of a list in which the last record of a key counts. -/
def ofList (key : α → κ) (xs : List α) : Table key := xs.foldl put (empty key)

@[simp] theorem find?_empty (k : κ) : (empty key).find? k = none := rfl

theorem key_of_find? {t : Table key} {k : κ} {a : α} (h : t.find? k = some a) : key a = k := by
  simpa using List.find?_some h

theorem mem_of_find? {t : Table key} {k : κ} {a : α} (h : t.find? k = some a) : a ∈ t.rows :=
  List.mem_of_find?_eq_some h

theorem find?_putRow (a : α) (rows : List α) (k : κ) :
    (putRow key a rows).find? (fun b ↦ key b = k) =
      if key a = k then some a else rows.find? fun b ↦ key b = k := by
  induction rows with
  | nil => by_cases h : key a = k <;> simp [putRow, h]
  | cons b bs ih =>
    by_cases hb : key b = key a
    · by_cases h : key a = k <;> simp [putRow, hb, h]
    · by_cases hk : key b = k
      · have : ¬key a = k := fun e ↦ hb (hk.trans e.symm)
        rw [putRow, if_neg hb]
        simp [hk, this]
      · simp [putRow, hb, hk, ih]

/-- What is put is found under its key, and nothing else changes. -/
theorem find?_put (t : Table key) (a : α) (k : κ) :
    (t.put a).find? k = if key a = k then some a else t.find? k :=
  find?_putRow a t.rows k

/-- What is erased is not found, and nothing else changes. -/
theorem find?_erase (t : Table key) (k l : κ) :
    (t.erase k).find? l = if l = k then none else t.find? l := by
  simp only [find?, erase, rows_filter, List.find?_filter]
  by_cases h : l = k
  · subst h
    rw [if_pos rfl, List.find?_eq_none]
    intro a _
    by_cases ha : key a = l <;> simp [ha]
  · rw [if_neg h]
    congr 1
    funext a
    by_cases ha : key a = l
    · have : ¬key a = k := fun e ↦ h (ha.symm.trans e)
      simp [ha, h]
    · simp [ha]

end Table

end Outreach
