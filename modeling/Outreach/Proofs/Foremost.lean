import Outreach.Proofs.Sorting

/-!
# The foremost of many

A short list names the foremost of some records: as many of them as are asked for, or all if there are
no more, in order, and such that nothing which is left out is before anything that is named. Where
records are equally far in front, this leaves open which of them are named.
-/

namespace Outreach

variable {α β κ : Type}

/-- Views of records, one of each, show the records. -/
theorem forall₂_views {Shows : α → β → Prop} {view : α → β} (h : ∀ a, Shows a (view a))
    (as : List α) : as.Forall₂ Shows (as.map view) :=
  List.forall₂_map_right_iff.mpr (List.forall₂_same.mpr fun a _ ↦ h a)

/-- A list names the foremost of some records, up to a number of them. -/
structure Foremost (most : Nat) (among : List α) (Before : α → α → Prop) (named : List α) :
    Prop where
  /-- As many are named as are asked for, or as there are. -/
  length_eq : named.length = min most among.length
  nodup : named.Nodup
  mem : ∀ a ∈ named, a ∈ among
  /-- No record is before one that is named earlier. -/
  ordered : named.Pairwise fun a b ↦ ¬Before b a
  /-- No record that is left out is before one that is named. -/
  left_out : ∀ a ∈ among, a ∉ named → ∀ b ∈ named, ¬Before a b

namespace Foremost

variable {most : Nat} {among among' named : List α} {Before Before' : α → α → Prop}

/-- What is foremost in one sense is so in any sense in which fewer records are before others. -/
theorem imp (h : Foremost most among Before named) (fewer : ∀ a b, Before' a b → Before a b) :
    Foremost most among Before' named where
  length_eq := h.length_eq
  nodup := h.nodup
  mem := h.mem
  ordered := h.ordered.imp fun {a b} apart before ↦ apart (fewer b a before)
  left_out a ha out b hb before := h.left_out a ha out b hb (fewer a b before)

/-- The arrangement of the records makes no difference. -/
theorem perm (h : Foremost most among Before named) (p : among.Perm among') :
    Foremost most among' Before named where
  length_eq := p.length_eq ▸ h.length_eq
  nodup := h.nodup
  mem a ha := p.subset (h.mem a ha)
  ordered := h.ordered
  left_out a ha := h.left_out a (p.symm.subset ha)

/-- What tells the records apart tells those that are named apart. -/
theorem nodup_map {key : α → κ} (h : Foremost most among Before named)
    (distinct : (among.map key).Nodup) : (named.map key).Nodup :=
  h.nodup.map_on fun a ha b hb same ↦ List.inj_on_of_nodup_map distinct (h.mem a ha) (h.mem b hb) same

/-- Views of the foremost records are told apart by what tells the records apart and can be seen. -/
theorem nodup_views {view : α → β} {seen : β → κ} (h : Foremost most among Before named)
    (distinct : (among.map (seen ∘ view)).Nodup) : ((named.map view).map seen).Nodup := by
  rw [List.map_map]
  exact h.nodup_map distinct

/-- The front of a sorted list names the foremost. -/
theorem take_mergeSort [LinearOrder κ] {le : α → α → Bool} {key : α → κ}
    (sorts : ComparesBy le key) {xs : List α} (distinct : xs.Nodup) (most : Nat) :
    Foremost most xs (fun a b ↦ key a < key b) ((xs.mergeSort le).take most) where
  length_eq := by rw [List.length_take, List.length_mergeSort]
  nodup := ((List.mergeSort_perm xs le).nodup_iff.mpr distinct).sublist (List.take_sublist ..)
  mem a ha := List.mem_mergeSort.mp (List.mem_of_mem_take ha)
  ordered := ((sorts.pairwise_le xs).sublist (List.take_sublist ..)).imp not_lt_of_ge
  left_out a ha out b hb := by
    -- what is left out stands behind the front
    have parts := sorts.pairwise_le xs
    rw [← List.take_append_drop most (xs.mergeSort le), List.pairwise_append] at parts
    have behind : a ∈ (xs.mergeSort le).drop most := by
      have sorted : a ∈ (xs.mergeSort le).take most ++ (xs.mergeSort le).drop most := by
        rw [List.take_append_drop]
        exact List.mem_mergeSort.mpr ha
      exact (List.mem_append.mp sorted).resolve_left out
    exact not_lt_of_ge (parts.2.2 b hb a behind)

end Foremost

end Outreach
