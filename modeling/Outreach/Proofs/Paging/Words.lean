import Outreach.Proofs.Paging

/-!
# Pages counted in machine words

The number of a page is any machine word but zero, so that the position at which a page begins may be
too large for a word. It is cut off at the largest word then, and as no list is that long, the page
is empty either way: whatever page is wanted of whatever list, nothing overflows on the way to it, and
it holds the entries at its positions.
-/

namespace Outreach.Paging

variable {α : Type}

/-! ## Arithmetic on words -/

/-- A number as a word, unless it is too large for one. -/
def word? (n : Nat) : Option UInt64 := if n < UInt64.size then some (.ofNat n) else none

/-- The word above, unless there is none. -/
def above? (a : UInt64) : Option UInt64 := word? (a.toNat + 1)

/-- The word below, unless there is none. -/
def below? (a : UInt64) : Option UInt64 := if a = 0 then none else some (a - 1)

/-- A product, cut off at the largest word. -/
def cappedMul (a b : UInt64) : UInt64 := .ofNat (min (a.toNat * b.toNat) (UInt64.size - 1))

/-- A quotient rounded up, unless it is a quotient by zero or too large for a word. -/
def ceilDiv? (a b : UInt64) : Option UInt64 :=
  if b = 0 then none else if a % b = 0 then some (a / b) else above? (a / b)

theorem word?_of_lt {n : Nat} (fits : n < UInt64.size) : ∃ a, word? n = some a ∧ a.toNat = n :=
  ⟨.ofNat n, if_pos fits, UInt64.toNat_ofNat_of_lt' fits⟩

theorem below?_of_pos {a : UInt64} (positive : 1 ≤ a.toNat) :
    ∃ b, below? a = some b ∧ b.toNat = a.toNat - 1 := by
  have nonzero : a ≠ 0 := by rintro rfl; exact absurd positive (by decide)
  refine ⟨a - 1, if_neg nonzero, ?_⟩
  have le : 1 ≤ a := UInt64.le_iff_toNat_le.mpr positive
  rw [UInt64.toNat_sub_of_le _ _ le]
  rfl

theorem toNat_cappedMul (a b : UInt64) :
    (cappedMul a b).toNat = min (a.toNat * b.toNat) (UInt64.size - 1) := by
  refine UInt64.toNat_ofNat_of_lt' (lt_of_le_of_lt (Nat.min_le_right _ _) ?_)
  decide

/-- A quotient rounded up, with and without a remainder. -/
theorem ceilDiv_eq {m : Nat} (positive : 1 ≤ m) (n : Nat) :
    (n + m - 1) / m = if n % m = 0 then n / m else n / m + 1 := by
  have whole := Nat.div_add_mod n m
  have rest := Nat.mod_lt n positive
  split
  case isTrue none =>
    refine Nat.div_eq_of_lt_le ?_ ?_
    · rw [Nat.mul_comm]; omega
    · rw [Nat.succ_mul, Nat.mul_comm]; omega
  case isFalse some =>
    refine Nat.div_eq_of_lt_le ?_ ?_
    · rw [Nat.succ_mul, Nat.mul_comm]; omega
    · rw [Nat.succ_mul, Nat.succ_mul, Nat.mul_comm]; omega

/-- A quotient by anything but zero that is rounded up is a word. -/
theorem ceilDiv?_of_pos (a : UInt64) {b : UInt64} (positive : 1 ≤ b.toNat) :
    ∃ q, ceilDiv? a b = some q ∧ q.toNat = (a.toNat + b.toNat - 1) / b.toNat := by
  have nonzero : b ≠ 0 := by rintro rfl; exact absurd positive (by decide)
  have remainder : a % b = 0 ↔ a.toNat % b.toNat = 0 := by
    rw [← UInt64.toNat_inj, UInt64.toNat_mod]; rfl
  rw [ceilDiv_eq positive, ceilDiv?, if_neg nonzero]
  by_cases even : a % b = 0
  · rw [if_pos even, if_pos (remainder.mp even)]
    exact ⟨_, rfl, UInt64.toNat_div a b⟩
  · rw [if_neg even, if_neg (even ∘ remainder.mpr), ← UInt64.toNat_div]
    -- a quotient with a remainder is no larger than what is divided, less one
    refine word?_of_lt (lt_of_le_of_lt ?_ a.toNat_lt)
    have whole := Nat.div_add_mod a.toNat b.toNat
    have some : a.toNat % b.toNat ≠ 0 := even ∘ remainder.mpr
    have grows := Nat.le_mul_of_pos_left (a.toNat / b.toNat) positive
    rw [UInt64.toNat_div]
    omega

/-! ## A page on the machine -/

/-- The wanted page of a list as it is reckoned in words, unless something overflows. -/
def slice? (page limit : UInt64) (items : List α) : Option (Page α) := do
  let totalItems ← word? items.length
  let totalPages ← ceilDiv? totalItems limit
  let before ← below? page
  let start := cappedMul before limit
  return {
    data := (items.drop start.toNat).take limit.toNat
    currentPage := page.toNat
    totalPages := totalPages.toNat
    totalItems := totalItems.toNat }

/-- Dropping no more entries than there can be. -/
theorem drop_min {items : List α} {most : Nat} (fits : items.length ≤ most) (n : Nat) :
    items.drop (min n most) = items.drop n := by
  rcases Nat.le_total n most with small | large
  · rw [Nat.min_eq_left small]
  · rw [Nat.min_eq_right large, List.drop_of_length_le fits,
      List.drop_of_length_le (fits.trans large)]

/-- Nothing overflows, and the page is the wanted one. -/
theorem slice?_eq (r : Request) {page limit : UInt64} (same_page : page.toNat = r.page)
    (same_limit : limit.toNat = r.limit) {items : List α} (fits : items.length < UInt64.size) :
    slice? page limit items = some (r.slice items) := by
  obtain ⟨totalItems, counted, items_eq⟩ := word?_of_lt fits
  obtain ⟨totalPages, divided, pages_eq⟩ :=
    ceilDiv?_of_pos totalItems (same_limit ▸ r.one_le_limit)
  obtain ⟨before, lowered, before_eq⟩ := below?_of_pos (same_page ▸ r.one_le_page)
  have rest : items.drop (cappedMul before limit).toNat =
      items.drop ((r.page - 1) * r.limit) := by
    rw [toNat_cappedMul, drop_min (Nat.le_sub_one_of_lt fits), before_eq, same_page, same_limit]
  simp only [slice?, counted, divided, lowered, bind, Option.bind, pure, rest, pages_eq, items_eq,
    same_page, same_limit]
  rfl

/-! ## What a page shows -/

/-- What a page shows of a list. -/
structure Request.Shows (r : Request) (items : List α) (p : Page α) : Prop where
  /-- The entries at the positions of the page, as far as there are such. -/
  entries : p.data = (List.range' ((r.page - 1) * r.limit) r.limit).filterMap (items[·]?)
  number : p.currentPage = r.page
  total : p.totalItems = items.length
  /-- Any page but the last one is full, -/
  full : r.page < p.totalPages → p.data.length = r.limit
  /-- the last page holds something, -/
  last : r.page = p.totalPages → 1 ≤ p.data.length ∧ p.data.length ≤ r.limit
  beyond : p.totalPages < r.page → p.data = []
  /-- There is a next page if there are entries at positions behind this one. -/
  next : p.hasNext = true ↔ ∃ i, r.page * r.limit ≤ i ∧ i < items.length
  /-- There is a previous page unless this is the first one. -/
  previous : p.hasPrevious = true ↔ r.page ≠ 1

/-- A slice as the entries at its positions. -/
theorem take_drop_eq_filterMap (items : List α) (start n : Nat) :
    (items.drop start).take n = (List.range' start n).filterMap (items[·]?) := by
  induction n generalizing start with
  | zero => rfl
  | succ n ih =>
    rw [List.range'_succ, List.filterMap_cons, ← ih]
    cases entry : items[start]? with
    | none =>
      have out := List.getElem?_eq_none_iff.mp entry
      rw [List.drop_of_length_le out, List.drop_of_length_le (Nat.le_succ_of_le out),
        List.take_nil, List.take_nil]
    | some a =>
      obtain ⟨inside, rfl⟩ := List.getElem?_eq_some_iff.mp entry
      rw [List.drop_eq_getElem_cons inside, List.take_succ_cons]

/-- A page has one behind it if entries are left. -/
theorem Request.lt_pages_iff (r : Request) {n items : Nat} :
    n < r.pages items ↔ n * r.limit < items := by
  have positive := r.one_le_limit
  rw [pages, ← Nat.add_one_le_iff, Nat.le_div_iff_mul_le positive, Nat.add_mul]
  omega

theorem Request.shows_slice (r : Request) (items : List α) : r.Shows items (r.slice items) := by
  have first := r.one_le_page
  have length_eq : (r.slice items).data.length =
      min r.limit (items.length - (r.page - 1) * r.limit) := by
    rw [slice, List.length_take, List.length_drop]
  have step : r.page * r.limit = (r.page - 1) * r.limit + r.limit := by
    rw [← Nat.succ_mul, Nat.succ_eq_add_one, Nat.sub_add_cancel first]
  exact {
    entries := take_drop_eq_filterMap items _ _
    number := rfl
    total := rfl
    full := fun before ↦ by
      have left := r.lt_pages_iff.mp before
      rw [length_eq]
      omega
    last := fun same ↦ by
      have left := r.lt_pages_iff.mp (show r.page - 1 < r.pages items.length by
        change r.page = r.pages items.length at same
        omega)
      have positive := r.one_le_limit
      rw [length_eq]
      omega
    beyond := fun past ↦ by
      have none := mt r.lt_pages_iff.mpr (show ¬r.page - 1 < r.pages items.length by
        change r.pages items.length < r.page at past
        omega)
      exact List.length_eq_zero_iff.mp (by rw [length_eq]; omega)
    next := by
      refine decide_eq_true_iff.trans (r.lt_pages_iff.trans ⟨fun left ↦ ⟨_, le_rfl, left⟩, ?_⟩)
      rintro ⟨i, behind, inside⟩
      exact behind.trans_lt inside
    previous := decide_eq_true_iff.trans (show 1 < r.page ↔ r.page ≠ 1 by omega) }

/-! ## Pages of a list -/

/-- A page and a limit, as far as they are given, that may be wanted. -/
def Allowed (page? limit? : Option UInt64) : Prop :=
  1 ≤ page?.getD 1 ∧ 1 ≤ limit?.getD 10 ∧ limit?.getD 10 ≤ 100

def ofWords (page? limit? : Option UInt64) : Except Fault Request :=
  Request.of (page?.map UInt64.toNat) (limit?.map UInt64.toNat)

theorem getD_one_eq (page? : Option UInt64) :
    (page?.map UInt64.toNat).getD 1 = (page?.getD 1).toNat :=
  Option.getD_map UInt64.toNat 1 page?

theorem getD_usualLimit_eq (limit? : Option UInt64) :
    (limit?.map UInt64.toNat).getD usualLimit = (limit?.getD 10).toNat :=
  Option.getD_map UInt64.toNat 10 limit?

theorem allowed_iff {page? limit? : Option UInt64} :
    Allowed page? limit? ↔ 1 ≤ (page?.map UInt64.toNat).getD 1 ∧
      1 ≤ (limit?.map UInt64.toNat).getD usualLimit ∧
      (limit?.map UInt64.toNat).getD usualLimit ≤ maxLimit := by
  rw [getD_one_eq, getD_usualLimit_eq, Allowed, UInt64.le_iff_toNat_le, UInt64.le_iff_toNat_le,
    UInt64.le_iff_toNat_le]
  rfl

theorem ofWords_of_allowed {page? limit? : Option UInt64} (allowed : Allowed page? limit?) :
    ∃ r, ofWords page? limit? = .ok r ∧ r.page = (page?.getD 1).toNat ∧
      r.limit = (limit?.getD 10).toNat := by
  obtain ⟨positive, something, within⟩ := allowed_iff.mp allowed
  refine ⟨⟨_, _, positive, something, within⟩, ?_, getD_one_eq page?, getD_usualLimit_eq limit?⟩
  rw [ofWords, Request.of, dif_pos positive, dif_pos ⟨something, within⟩]

theorem ofWords_of_not_allowed {page? limit? : Option UInt64} (allowed : ¬Allowed page? limit?) :
    ∃ f, ofWords page? limit? = .error f ∧ f.kind? = some .validation := by
  rw [allowed_iff] at allowed
  by_cases positive : 1 ≤ (page?.map UInt64.toNat).getD 1
  · refine ⟨.limitOutOfRange, ?_, rfl⟩
    rw [ofWords, Request.of, dif_pos positive, dif_neg fun within ↦ allowed ⟨positive, within⟩]
  · refine ⟨.pageBelowOne, ?_, rfl⟩
    rw [ofWords, Request.of, dif_neg positive]

/-- For every list that fits into memory, every page and limit within the bounds are accepted, the
page is reckoned without anything overflowing, and it shows the entries at its positions and tells
truly what is before and behind it; any other page or limit is refused; and the pages together are
the list. -/
theorem pages_exact (items : List α) (fits : items.length < UInt64.size) :
    (∀ page? limit?, Allowed page? limit? → ∃ r, ofWords page? limit? = .ok r ∧
      r.page = (page?.getD 1).toNat ∧ r.limit = (limit?.getD 10).toNat ∧
      slice? (page?.getD 1) (limit?.getD 10) items = some (r.slice items) ∧
      r.Shows items (r.slice items)) ∧
    (∀ page? limit?, ¬Allowed page? limit? →
      ∃ f, ofWords page? limit? = .error f ∧ f.kind? = some .validation) ∧
    (∀ limit?, ValidLimit limit? →
      (collect fun n ↦ (Request.of (some n) limit?).map (·.slice items)) = .ok items) := by
  refine ⟨fun page? limit? allowed ↦ ?_, fun _ _ ↦ ofWords_of_not_allowed,
    fun _ valid ↦ collect_slice valid items⟩
  obtain ⟨r, accepted, page_eq, limit_eq⟩ := ofWords_of_allowed allowed
  exact ⟨r, accepted, page_eq, limit_eq, slice?_eq r page_eq.symm limit_eq.symm fits,
    r.shows_slice items⟩

/-- The last page of all that there can be, of a list of three. -/
theorem pages_exact_far : [1, 2, 3].length < UInt64.size ∧
    ∃ r, ofWords (some 18446744073709551615) (some 100) = .ok r ∧
      slice? 18446744073709551615 100 [1, 2, 3] = some (r.slice [1, 2, 3]) ∧
      (r.slice [1, 2, 3]).data = [] ∧ (r.slice [1, 2, 3]).hasNext = false ∧
      (r.slice [1, 2, 3]).hasPrevious = true := by
  have fits : [1, 2, 3].length < UInt64.size := by decide
  obtain ⟨r, accepted, page_eq, limit_eq, reckoned, shows⟩ :=
    (pages_exact [1, 2, 3] fits).1 (some 18446744073709551615) (some 100)
      ⟨by decide, by decide, by decide⟩
  have page : r.page = 18446744073709551615 := page_eq
  have limit : r.limit = 100 := limit_eq
  have pages : (r.slice [1, 2, 3]).totalPages = 1 := by
    rw [Request.slice, Request.pages, limit]
    rfl
  refine ⟨fits, r, accepted, reckoned, shows.beyond (by omega), ?_, shows.previous.mpr (by omega)⟩
  refine Bool.eq_false_iff.mpr (mt shows.next.mp ?_)
  rintro ⟨i, behind, inside⟩
  rw [page, limit] at behind
  rw [List.length_cons, List.length_cons, List.length_singleton] at inside
  omega

end Outreach.Paging
