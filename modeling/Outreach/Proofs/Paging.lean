import Mathlib.Data.List.Basic
import Mathlib.Order.OrderDual
import Outreach.Paging
import Outreach.Proofs.Sorting

/-!
# Pages put together

The pages of a list, from the first one to the last, hold the whole list one after the other, and
each of them knows how long it is. A list of records is handed out this way after it has been
filtered and sorted; if the sorting goes by a key that no two records share, the pages hold exactly
the wanted records, each once and strictly descending by that key.
-/

namespace Outreach.Paging

variable {α κ : Type}

/-! ## Slices -/

/-- The slices from the first one on are what they cover of the list. -/
theorem flatMap_slices (xs : List α) (limit pages : Nat) :
    ((List.range' 1 pages).flatMap fun n ↦ (xs.drop ((n - 1) * limit)).take limit) =
      xs.take (pages * limit) := by
  induction pages with
  | zero => simp
  | succ pages ih =>
    rw [List.range'_concat, List.flatMap_append, ih, Nat.add_mul, Nat.one_mul, List.take_add]
    simp

/-- As many pages as there are cover everything. -/
theorem le_pages_mul {limit : Nat} (something : 1 ≤ limit) (items : Nat) :
    items ≤ (items + limit - 1) / limit * limit := by
  have whole := Nat.div_add_mod (items + limit - 1) limit
  have rest := Nat.mod_lt (items + limit - 1) something
  rw [Nat.mul_comm]
  omega

/-- A limit that may be asked for. -/
def ValidLimit (limit? : Option Nat) : Prop := ∀ l, limit? = some l → 1 ≤ l ∧ l ≤ maxLimit

theorem ValidLimit.within {limit? : Option Nat} (h : ValidLimit limit?) :
    1 ≤ limit?.getD usualLimit ∧ limit?.getD usualLimit ≤ maxLimit := by
  cases limit? with
  | none => decide
  | some l => exact h l rfl

/-- The page of a list that has a number. -/
def numbered (limit : Nat) (xs : List α) (n : Nat) : Page α where
  data := (xs.drop ((n - 1) * limit)).take limit
  currentPage := n
  totalPages := (xs.length + limit - 1) / limit
  totalItems := xs.length

theorem map_slice {limit? : Option Nat} (valid : ValidLimit limit?) {n : Nat} (positive : 1 ≤ n)
    (xs : List α) : (Request.of (some n) limit?).map (·.slice xs) =
      .ok (numbered (limit?.getD usualLimit) xs n) := by
  simp only [Request.of, Option.getD_some, dif_pos positive, dif_pos valid.within]
  rfl

/-! ## All pages -/

/-- The entries of all pages, one page after the other, as many pages as the first one tells. -/
def collect (page : Nat → Except Fault (Page α)) : Except Fault (List α) := do
  let first ← page 1
  let pages ← (List.range' 1 first.totalPages).mapM page
  return pages.flatMap (·.data)

theorem mapM_eq_ok {ε β : Type} {f : α → Except ε β} {g : α → β} {xs : List α}
    (h : ∀ x ∈ xs, f x = .ok (g x)) : xs.mapM f = .ok (xs.map g) := by
  induction xs with
  | nil => rfl
  | cons x xs ih =>
    rw [List.mapM_cons, h x List.mem_cons_self, ih fun y hy ↦ h y (List.mem_cons_of_mem _ hy)]
    rfl

/-- All pages of a list together are the list. -/
theorem collect_slice {limit? : Option Nat} (valid : ValidLimit limit?) (xs : List α) :
    (collect fun n ↦ (Request.of (some n) limit?).map (·.slice xs)) = .ok xs := by
  let pages := (numbered (limit?.getD usualLimit) xs 1).totalPages
  have each : (List.range' 1 pages).mapM (fun n ↦ (Request.of (some n) limit?).map (·.slice xs)) =
      .ok ((List.range' 1 pages).map (numbered (limit?.getD usualLimit) xs)) := by
    refine mapM_eq_ok fun n hn ↦ map_slice valid ?_ xs
    exact (List.mem_range'_1.mp hn).1
  have whole : ((List.range' 1 pages).map (numbered (limit?.getD usualLimit) xs)).flatMap
      (·.data) = xs := by
    rw [List.flatMap_map]
    exact (flatMap_slices xs _ pages).trans
      (List.take_of_length_le (le_pages_mul valid.within.1 xs.length))
  simp only [collect, map_slice valid le_rfl, bind, Except.bind, pure, Except.pure]
  rw [each]
  exact congrArg Except.ok whole

/-! ## Lists of records -/

/-- How a list is handed out of which entries are stored, some of them wanted, and which goes by a
key. -/
structure Listing [LinearOrder κ] (stored : List α) (Wanted : α → Prop) (key : α → κ)
    (list : Option Nat → Option Nat → Except Fault (Page α)) : Prop where
  /-- The pages hold the wanted records, each once and strictly descending, and every page tells how
  many there are. -/
  complete : ∀ limit?, ValidLimit limit? → ∃ all,
    (collect fun n ↦ list (some n) limit?) = .ok all ∧
    (∀ a, a ∈ all ↔ a ∈ stored ∧ Wanted a) ∧
    all.Nodup ∧
    (all.Pairwise fun a b ↦ key b < key a) ∧
    ∀ n, 1 ≤ n → ∃ p, list (some n) limit? = .ok p ∧ p.totalItems = all.length
  /-- There is no page before the first one. -/
  page_positive : ∀ limit?, ∃ f, list (some 0) limit? = .error f ∧ f.kind? = some .validation
  /-- A page holds neither nothing nor too much. -/
  limit_within : ∀ page? l, l < 1 ∨ maxLimit < l →
    ∃ f, list page? (some l) = .error f ∧ f.kind? = some .validation

variable {key : α → κ} {stored : List α}

/-- The kept records do not share keys either, seen downwards. -/
theorem nodup_keys (distinct : (stored.map key).Nodup) (p : α → Bool) :
    ((stored.filter p).map (OrderDual.toDual ∘ key)).Nodup := by
  rw [← List.map_map]
  refine List.Nodup.map OrderDual.toDual.injective ?_
  exact distinct.sublist (List.filter_sublist.map _)

variable [LinearOrder κ] {le : α → α → Bool} {accepts : α → Bool} {Wanted : α → Prop}

/-- What is filtered, sorted downwards by a key and sliced is handed out as it should be. -/
theorem listing (sorts : ComparesBy le (OrderDual.toDual ∘ key))
    (distinct : (stored.map key).Nodup) (wanted : ∀ a, accepts a = true ↔ Wanted a) :
    Listing stored Wanted key fun page? limit? ↦
      (Request.of page? limit?).map (·.slice ((stored.filter accepts).mergeSort le)) where
  complete limit? valid := by
    let all := (stored.filter accepts).mergeSort le
    have descends : all.Pairwise fun a b ↦ key b < key a :=
      sorts.pairwise_lt (nodup_keys distinct accepts)
    refine ⟨all, collect_slice valid all, ?_, ?_, descends, ?_⟩
    · intro a
      rw [List.mem_mergeSort, List.mem_filter, wanted]
    · exact descends.imp fun hlt same ↦ hlt.ne (congrArg key same.symm)
    · intro n positive
      exact ⟨_, map_slice valid positive all, rfl⟩
  page_positive limit? := ⟨.pageBelowOne, rfl, rfl⟩
  limit_within page? l out := by
    have none : ¬(1 ≤ l ∧ l ≤ maxLimit) := by omega
    by_cases positive : 1 ≤ page?.getD 1
    · refine ⟨.limitOutOfRange, ?_, rfl⟩
      simp only [Request.of, Option.getD_some, dif_pos positive, dif_neg none]
      rfl
    · refine ⟨.pageBelowOne, ?_, rfl⟩
      simp only [Request.of, dif_neg positive]
      rfl

end Outreach.Paging
