import Mathlib.Order.Lattice
import Outreach.Calendar.Instant

/-!
# The order of instants

Instants are in a linear order, first by their seconds and then by their nanoseconds. The next
instant comes strictly later, within a leap second and at the end of a second too.
-/

namespace Outreach.Calendar.Instant

/-- One instant is before another, or the same, by its seconds, and within a second by its
nanoseconds. -/
theorem le_iff {a b : Instant} :
    a.le b = true ↔ a.secs < b.secs ∨ a.secs = b.secs ∧ a.nanos ≤ b.nanos := by
  simp [Instant.le]

/-- One instant is strictly before another by its seconds, and within a second by its
nanoseconds. -/
theorem lt_iff {a b : Instant} :
    a.lt b = true ↔ a.secs < b.secs ∨ a.secs = b.secs ∧ a.nanos < b.nanos := by
  simp [Instant.lt]

/-- Instants in the order of time. -/
instance : LinearOrder Instant where
  le a b := a.le b = true
  lt a b := a.lt b = true
  le_refl a := le_iff.mpr (.inr ⟨rfl, Nat.le_refl _⟩)
  le_trans a b c hab hbc := by
    rw [le_iff] at *
    omega
  lt_iff_le_not_ge a b := by
    rw [lt_iff, le_iff, le_iff]
    omega
  le_antisymm a b hab hba := by
    rw [le_iff] at *
    exact ext (by omega) (by omega)
  le_total a b := by
    rw [le_iff, le_iff]
    omega
  toDecidableLE a b := inferInstanceAs (Decidable (a.le b = true))
  toDecidableEq := inferInstance
  toDecidableLT a b := inferInstanceAs (Decidable (a.lt b = true))

/-- The test for the wide order decides it. -/
@[simp] theorem le_eq_true {a b : Instant} : a.le b = true ↔ a ≤ b := Iff.rfl

/-- The test for the strict order decides it. -/
@[simp] theorem lt_eq_true {a b : Instant} : a.lt b = true ↔ a < b := Iff.rfl

/-- The next instant is later. -/
theorem lt_of_succ? {t u : Instant} (h : t.succ? = some u) : t < u := by
  rw [← lt_eq_true, lt_iff]
  unfold succ? at h
  split at h <;> rw [ofParts?_eq_some_iff] at h <;> omega

end Outreach.Calendar.Instant
