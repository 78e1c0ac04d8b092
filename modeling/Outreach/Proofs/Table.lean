import Mathlib.Data.List.Nodup
import Outreach.Table

/-!
# What a table holds

Since no key comes twice, a record is in a table exactly if it is found under its own key. What is
in a table after a record has been put or erased follows from what is found in it.
-/

namespace Outreach.Table

variable {κ α : Type} {key : α → κ} {t : Table key} {a b : α} {k : κ}

/-- No record comes twice. -/
theorem nodup_rows (t : Table key) : t.rows.Nodup := List.Nodup.of_map key t.nodup

/-- Two records of a table with one key are the same. -/
theorem eq_of_key_eq (ha : a ∈ t.rows) (hb : b ∈ t.rows) (h : key a = key b) : a = b :=
  List.inj_on_of_nodup_map t.nodup ha hb h

variable [DecidableEq κ]

theorem find?_eq_none_iff : t.find? k = none ↔ ∀ a ∈ t.rows, key a ≠ k := by
  simp [find?, List.find?_eq_none]

/-- What is in a table is found under its key. -/
theorem find?_of_mem (h : a ∈ t.rows) : t.find? (key a) = some a := by
  cases found : t.find? (key a) with
  | none => exact absurd rfl (find?_eq_none_iff.mp found a h)
  | some b => rw [eq_of_key_eq (mem_of_find? found) h (key_of_find? found)]

theorem find?_eq_some_iff : t.find? k = some a ↔ a ∈ t.rows ∧ key a = k := by
  constructor
  · intro h
    exact ⟨mem_of_find? h, key_of_find? h⟩
  · rintro ⟨h, rfl⟩
    exact find?_of_mem h

theorem contains_iff : t.contains k = true ↔ ∃ a ∈ t.rows, key a = k := by
  rw [contains, Option.isSome_iff_exists]
  exact exists_congr fun a ↦ find?_eq_some_iff

theorem contains_eq_false_iff : t.contains k = false ↔ ∀ a ∈ t.rows, key a ≠ k := by
  rw [contains, Option.isSome_eq_false_iff, Option.isNone_iff_eq_none, find?_eq_none_iff]

/-- After a record has been put, it is there, and so are those with other keys. -/
theorem mem_put : b ∈ (t.put a).rows ↔ b = a ∨ b ∈ t.rows ∧ key b ≠ key a := by
  have found (u : Table key) : b ∈ u.rows ↔ u.find? (key b) = some b := by
    rw [find?_eq_some_iff, and_iff_left rfl]
  rw [found, found, find?_put]
  by_cases same : key a = key b
  · simp [same, eq_comm]
  · have other : b ≠ a := fun e ↦ same (congrArg key e.symm)
    simp [same, other, Ne.symm same]

/-- After a key has been erased, the records with other keys are there. -/
theorem mem_erase : b ∈ (t.erase k).rows ↔ b ∈ t.rows ∧ key b ≠ k := by
  simp [erase, List.mem_filter]

/-- What all records have and a new one has, all have after it has been put. -/
theorem forall_put {P : α → Prop} (before : ∀ b ∈ t.rows, P b) (new : P a) :
    ∀ b ∈ (t.put a).rows, P b := by
  intro b hb
  rcases mem_put.mp hb with rfl | ⟨hb, -⟩
  · exact new
  · exact before b hb

theorem forall_erase {P : α → Prop} (before : ∀ b ∈ t.rows, P b) :
    ∀ b ∈ (t.erase k).rows, P b :=
  fun b hb ↦ before b (mem_erase.mp hb).1

/-! ## Arrangement -/

/-- Up to the arrangement, a record that is put stands beside those with other keys. -/
theorem perm_put (t : Table key) (a : α) : (t.put a).rows.Perm (a :: (t.erase (key a)).rows) := by
  have distinct : (a :: (t.erase (key a)).rows).Nodup := by
    refine List.nodup_cons.mpr ⟨fun h ↦ ?_, nodup_rows _⟩
    exact (mem_erase.mp h).2 rfl
  rw [List.perm_ext_iff_of_nodup (nodup_rows _) distinct]
  intro b
  rw [mem_put, List.mem_cons, mem_erase]

/-- Up to the arrangement, a record with a new key stands beside all others. -/
theorem perm_put_of_new (new : t.find? (key a) = none) : (t.put a).rows.Perm (a :: t.rows) := by
  have untouched : (t.erase (key a)).rows = t.rows := by
    rw [erase, rows_filter, List.filter_eq_self]
    intro b hb
    rw [bne_iff_ne]
    exact find?_eq_none_iff.mp new b hb
  rw [← untouched]
  exact perm_put t a

/-- Up to the arrangement, a record that is found stands beside those with other keys. -/
theorem perm_of_find? (h : t.find? k = some a) : t.rows.Perm (a :: (t.erase k).rows) := by
  have here := key_of_find? h
  have distinct : (a :: (t.erase k).rows).Nodup := by
    refine List.nodup_cons.mpr ⟨fun h ↦ ?_, nodup_rows _⟩
    exact (mem_erase.mp h).2 here
  rw [List.perm_ext_iff_of_nodup (nodup_rows _) distinct]
  intro b
  rw [List.mem_cons, mem_erase]
  constructor
  · intro hb
    by_cases same : key b = k
    · exact .inl (eq_of_key_eq hb (mem_of_find? h) (same.trans here.symm))
    · exact .inr ⟨hb, same⟩
  · rintro (rfl | ⟨hb, -⟩)
    · exact mem_of_find? h
    · exact hb

end Outreach.Table
