import Mathlib.Data.List.Sort

/-!
# Sorting by a key

Lists are put in order by a test that compares keys. Where no key comes twice, the order is strict
and does not depend on how the list was arranged before.
-/

namespace Outreach

variable {α κ : Type} [LinearOrder κ] {le : α → α → Bool} {key : α → κ}

/-- A test tells whether the key of one record is at most that of another. -/
def ComparesBy (le : α → α → Bool) (key : α → κ) : Prop := ∀ a b, le a b = true ↔ key a ≤ key b

namespace ComparesBy

/-- A sorted list ascends by the key. -/
theorem pairwise_le (h : ComparesBy le key) (xs : List α) :
    (xs.mergeSort le).Pairwise fun a b ↦ key a ≤ key b := by
  refine (List.pairwise_mergeSort ?_ ?_ xs).imp fun {a b} hab ↦ (h a b).mp hab
  · intro a b c hab hbc
    rw [h] at *
    exact hab.trans hbc
  · intro a b
    rw [Bool.or_eq_true, h, h]
    exact le_total _ _

/-- A sorted list in which no key comes twice ascends strictly. -/
theorem pairwise_lt (h : ComparesBy le key) {xs : List α} (distinct : (xs.map key).Nodup) :
    (xs.mergeSort le).Pairwise fun a b ↦ key a < key b := by
  have keys : ((xs.mergeSort le).map key).Nodup :=
    ((List.mergeSort_perm xs le).map key).nodup_iff.mpr distinct
  exact (h.pairwise_le xs).imp₂ (fun _ _ hle hne ↦ lt_of_le_of_ne hle hne)
    (List.pairwise_map.mp keys)

/-- Sorting forgets the arrangement before. -/
theorem mergeSort_eq_of_perm (h : ComparesBy le key) {xs ys : List α}
    (distinct : (xs.map key).Nodup) (p : xs.Perm ys) : xs.mergeSort le = ys.mergeSort le := by
  have distinct' : (ys.map key).Nodup := (p.map key).nodup_iff.mp distinct
  have sorted : (xs.mergeSort le).Perm (ys.mergeSort le) :=
    (List.mergeSort_perm xs le).trans (p.trans (List.mergeSort_perm ys le).symm)
  exact sorted.eq_of_pairwise (fun a b _ _ hab hba ↦ absurd hba hab.asymm)
    (h.pairwise_lt distinct) (h.pairwise_lt distinct')

/-- What ascends already stays as it is. -/
theorem mergeSort_eq_self (h : ComparesBy le key) {xs : List α}
    (ascending : xs.Pairwise fun a b ↦ key a ≤ key b) : xs.mergeSort le = xs :=
  List.mergeSort_of_pairwise (ascending.imp fun {a b} hab ↦ (h a b).mpr hab)

/-- What is left of a sorted list is sorted. -/
theorem filter_mergeSort (h : ComparesBy le key) {xs : List α} (distinct : (xs.map key).Nodup)
    (p : α → Bool) : (xs.mergeSort le).filter p = (xs.filter p).mergeSort le := by
  have left : (xs.filter p).Perm ((xs.mergeSort le).filter p) :=
    (List.mergeSort_perm xs le).symm.filter p
  have distinct' : ((xs.filter p).map key).Nodup := distinct.sublist (List.filter_sublist.map key)
  rw [h.mergeSort_eq_of_perm distinct' left]
  exact (h.mergeSort_eq_self ((h.pairwise_le xs).filter p)).symm

end ComparesBy

end Outreach
