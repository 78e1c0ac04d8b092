import Outreach.Proofs.Text.Blank
import Outreach.Text.Lowercase

/-!
# What lower-casing leaves as it is

A character either is its own small form, or it is a letter whose small form consists of letters that
are their own. So lower-casing a second time changes nothing; and as neither white space nor the signs
that divide an address for mail are letters, these stay where they are.

The facts about single letters are checked in the table, one pair of runs after the other.
-/

namespace Outreach.Text

/-! ## The table of letters -/

variable {n : Nat} {r : CaseRun} {rs : List CaseRun} {c d : Char} {cs ds p : List Char}

/-- The run that is found for a code point is one of the table and holds it. -/
theorem of_findRun (h : findRun n rs = some r) :
    r ∈ rs ∧ r.first ≤ n ∧ n ≤ r.last ∧ (n - r.first) % r.step = 0 := by
  induction rs with
  | nil => cases h
  | cons r' rs ih =>
    simp only [findRun] at h
    split at h
    · cases h
    · next le =>
      split at h
      · next here =>
        cases h
        simp only [Bool.and_eq_true, decide_eq_true_eq, beq_iff_eq] at here
        exact ⟨List.mem_cons_self, Nat.le_of_not_lt le, here⟩
      · obtain ⟨mem, holds⟩ := ih h
        exact ⟨List.mem_cons_of_mem _ mem, holds⟩

/-- Code points of what is no letter: white space, the point and the at sign. -/
def markRanges : List (Nat × Nat) := blankRanges ++ [(0x2E, 0x2E), (0x40, 0x40)]

/-- White space, a point or an at sign. -/
def isMark (c : Char) : Bool := markRanges.any fun r ↦ r.1 ≤ c.toNat && c.toNat ≤ r.2

/-- Code points that no small form of a run has: those of marks, that of the dotted capital I, and
those that no character has. -/
def otherRanges : List (Nat × Nat) := (0x130, 0x130) :: (0xD800, 0xDFFF) :: markRanges

namespace CaseRun

/-- The code point of the small form of the first letter. -/
def low (r : CaseRun) : Nat := (r.first + r.shift).toNat

/-- The code point of the small form of the last letter. -/
def high (r : CaseRun) : Nat := (r.last + r.shift).toNat

/-- No small form of a run is a letter of an ascending table: the runs of the table lie apart from the
small forms, or both are at every second place and alternate. -/
def misses (r : CaseRun) : List CaseRun → Bool
  | [] => true
  | r' :: rs =>
    Nat.blt r.high r'.first ||
      (Nat.blt r'.last r.low ||
        ((r.step == 2 || r.low == r.high) && r'.step == 2 && (r.low + r'.first) % 2 == 1)) &&
      r.misses rs

/-- Neither the letters of a run nor their small forms are anything else. -/
def isPure (r : CaseRun) : Bool :=
  Nat.blt 0 r.low && Nat.blt r.high 0x110000 &&
    (markRanges.all fun m ↦ Nat.blt r.last m.1 || Nat.blt m.2 r.first) &&
    otherRanges.all fun m ↦ Nat.blt r.high m.1 || Nat.blt m.2 r.low

end CaseRun

theorem caseRuns_miss : (caseRuns.all fun r ↦ r.misses caseRuns) = true := by decide +kernel

theorem caseRuns_pure : caseRuns.all CaseRun.isPure = true := by decide +kernel

/-- What lies where the small forms of a run lie is not found in a table that they miss. -/
theorem findRun_eq_none (h : r.misses rs = true) (low : r.low ≤ n) (high : n ≤ r.high)
    (step : r.step = 2 → n % 2 = r.low % 2) : findRun n rs = none := by
  induction rs with
  | nil => rfl
  | cons r' rs ih =>
    simp only [CaseRun.misses, Bool.or_eq_true, Bool.and_eq_true, Nat.blt_eq, beq_iff_eq] at h
    unfold findRun
    split
    · rfl
    · next le =>
      obtain ⟨apart, rest⟩ := h.resolve_left (by omega)
      rw [if_neg, ih rest]
      simp only [Bool.and_eq_true, decide_eq_true_eq, beq_iff_eq]
      rintro ⟨last, here⟩
      rcases apart with before | ⟨⟨places, places'⟩, alternate⟩
      · omega
      · rw [places'] at here
        rcases places with places | single
        · have := step places
          omega
        · omega

/-! ## Characters -/

/-- The character is its own small form. -/
def IsSmall (c : Char) : Prop := c ≠ 'İ' ∧ findRun c.toNat caseRuns = none

instance (c : Char) : Decidable (IsSmall c) := inferInstanceAs (Decidable (_ ∧ _))

theorem IsSmall.lowerChar_eq (h : IsSmall c) : lowerChar c = [c] := by
  simp only [lowerChar, if_neg h.1, h.2]

theorem IsSmall.ne_sigma (h : IsSmall c) : c ≠ 'Σ' := by
  rintro rfl
  have capital : ¬IsSmall 'Σ' := by decide
  exact capital h

/-- The small form of a letter of the table is a character that is its own small form and no mark,
as the letter is none. -/
theorem small_of_findRun (h : findRun c.toNat caseRuns = some r) :
    isMark c = false ∧
      IsSmall (Char.ofNat ((c.toNat : Int) + r.shift).toNat) ∧
      isMark (Char.ofNat ((c.toNat : Int) + r.shift).toNat) = false := by
  obtain ⟨mem, first, last, step⟩ := of_findRun h
  have isPure := List.all_eq_true.mp caseRuns_pure r mem
  simp only [CaseRun.isPure, CaseRun.low, CaseRun.high, Bool.and_eq_true, Bool.or_eq_true,
    List.all_eq_true, Nat.blt_eq] at isPure
  obtain ⟨⟨⟨above, below⟩, marks⟩, others⟩ := isPure
  -- the code point of the small form lies between those of the first and the last letter
  obtain ⟨m, hm⟩ : ∃ m, m = ((c.toNat : Int) + r.shift).toNat := ⟨_, rfl⟩
  rw [← hm]
  have surrogates : (r.last + r.shift).toNat < 0xD800 ∨ 0xDFFF < (r.first + r.shift).toNat :=
    others (0xD800, 0xDFFF) (by simp [otherRanges])
  have valid : m.isValidChar := by
    simp only [Nat.isValidChar]
    omega
  have code : (Char.ofNat m).toNat = m := by
    rw [Char.ofNat, dif_pos valid]
    rfl
  refine ⟨?_, ⟨?_, ?_⟩, ?_⟩
  · simp only [isMark, List.any_eq_false, Bool.and_eq_true, decide_eq_true_eq]
    intro k hk
    have := marks k hk
    omega
  · intro dotted
    have apart : (r.last + r.shift).toNat < 0x130 ∨ 0x130 < (r.first + r.shift).toNat :=
      others (0x130, 0x130) (by simp [otherRanges])
    have code' : m = 0x130 := by
      rw [← code, dotted]
      rfl
    omega
  · rw [code]
    refine findRun_eq_none (List.all_eq_true.mp caseRuns_miss r mem) ?_ ?_ fun places ↦ ?_
    · simp only [CaseRun.low]
      omega
    · simp only [CaseRun.high]
      omega
    · rw [places] at step
      simp only [CaseRun.low]
      omega
  · simp only [isMark, List.any_eq_false, Bool.and_eq_true, decide_eq_true_eq]
    intro k hk
    have := others k (by simp [otherRanges, hk])
    rw [code]
    omega

/-- What becomes of a character: it is its own small form, or it is a letter and its small form
consists of letters that are their own. -/
inductive SmallForm : Char → List Char → Prop
  | same {c : Char} (small : IsSmall c) : SmallForm c [c]
  | letters {c : Char} {p : List Char} (letter : isMark c = false) (some : p ≠ [])
      (small : ∀ d ∈ p, IsSmall d) (letters : ∀ d ∈ p, isMark d = false) : SmallForm c p

/-- Every character but the capital sigma has a small form by itself. -/
theorem smallForm_lowerChar (h : c ≠ 'Σ') : SmallForm c (lowerChar c) := by
  unfold lowerChar
  split
  · next dotted =>
    subst dotted
    refine .letters (by decide) (by simp) ?_ ?_ <;>
      exact List.forall_mem_cons.mpr ⟨by decide, List.forall_mem_singleton.mpr (by decide)⟩
  · next plain =>
    split
    · next r found =>
      obtain ⟨letter, small, letters⟩ := small_of_findRun found
      exact .letters letter (by simp) (by simpa using small) (by simpa using letters)
    · next absent => exact .same ⟨plain, absent⟩

/-- Both small forms of sigma are letters. -/
theorem smallForm_sigma (final : Bool) : SmallForm 'Σ' [if final then 'ς' else 'σ'] := by
  cases final <;> refine .letters (by decide) (by simp) ?_ ?_ <;>
    simp only [List.forall_mem_singleton] <;> decide

/-! ## Texts -/

/-- The second text has a small form for each character of the first. -/
inductive Lowers : List Char → List Char → Prop
  | nil : Lowers [] []
  | cons {c : Char} {p cs ds : List Char} (form : SmallForm c p) (rest : Lowers cs ds) :
    Lowers (c :: cs) (p ++ ds)

theorem lowers_lowerFrom (before cs : List Char) : Lowers cs (lowerFrom before cs) := by
  induction cs generalizing before with
  | nil => exact .nil
  | cons c cs ih =>
    refine .cons ?_ (ih (c :: before))
    split
    · next sigma =>
      subst sigma
      exact smallForm_sigma _
    · next other => exact smallForm_lowerChar other

theorem lowers_lowerChars (cs : List Char) : Lowers cs (lowerChars cs) := lowers_lowerFrom [] cs

theorem SmallForm.small (h : SmallForm c p) : ∀ d ∈ p, IsSmall d := by
  cases h with
  | same small => simpa using small
  | letters _ _ small _ => exact small

theorem Lowers.small (h : Lowers cs ds) : ∀ d ∈ ds, IsSmall d := by
  induction h with
  | nil => simp
  | cons form _ ih =>
    intro d hd
    rcases List.mem_append.mp hd with here | there
    · exact form.small d here
    · exact ih d there

/-- Nothing becomes nothing, and only nothing does. -/
theorem Lowers.eq_nil_iff (h : Lowers cs ds) : ds = [] ↔ cs = [] := by
  cases h with
  | nil => simp
  | cons form rest => cases form <;> simp_all

/-- Characters that are their own small forms stay. -/
theorem lowerFrom_eq_self (before : List Char) (h : ∀ c ∈ cs, IsSmall c) :
    lowerFrom before cs = cs := by
  induction cs generalizing before with
  | nil => rfl
  | cons c cs ih =>
    have small := h c List.mem_cons_self
    have rest := ih (c :: before) fun d hd ↦ h d (List.mem_cons_of_mem _ hd)
    rw [lowerFrom, if_neg small.ne_sigma, small.lowerChar_eq, rest, List.singleton_append]

/-- A text in small letters is in small letters. -/
theorem lowerChars_lowerChars (cs : List Char) : lowerChars (lowerChars cs) = lowerChars cs :=
  lowerFrom_eq_self [] (lowers_lowerChars cs).small

theorem lower_lower (s : String) : lower (lower s) = lower s := by
  rw [lower, toList_lower, lowerChars_lowerChars, lower]

/-! ## Marks in texts

A test that only marks pass has the same answer before and after, for the first character, for the
last, and for any. -/

section Marks

variable {test : Char → Bool} (only : ∀ c, isMark c = false → test c = false)
include only

theorem SmallForm.any_eq (h : SmallForm c p) : p.any test = test c := by
  cases h with
  | same => simp
  | letters letter _ _ letters =>
    rw [only c letter, List.any_eq_false]
    exact fun d hd ↦ Bool.eq_false_iff.mp (only d (letters d hd))

theorem SmallForm.head?_any (h : SmallForm c p) (ds : List Char) :
    (p ++ ds).head?.any test = test c := by
  cases h with
  | same => simp
  | letters letter some _ letters =>
    obtain ⟨d, p, rfl⟩ := List.exists_cons_of_ne_nil some
    simp [only c letter, only d (letters d List.mem_cons_self)]

theorem SmallForm.getLast?_any (h : SmallForm c p) : p.getLast?.any test = test c := by
  cases h with
  | same => simp
  | letters letter some _ letters =>
    rw [List.getLast?_eq_some_getLast some, Option.any_some, only c letter]
    exact only _ (letters _ (List.getLast_mem some))

namespace Lowers

variable (h : Lowers cs ds)
include h

theorem any_eq : ds.any test = cs.any test := by
  induction h with
  | nil => rfl
  | cons form _ ih => rw [List.any_append, form.any_eq only, ih, List.any_cons]

theorem head?_any : ds.head?.any test = cs.head?.any test := by
  cases h with
  | nil => rfl
  | cons form _ => exact form.head?_any only _

theorem getLast?_any : ds.getLast?.any test = cs.getLast?.any test := by
  induction h with
  | nil => rfl
  | @cons c p cs ds form rest ih =>
    cases ds with
    | nil =>
      rw [rest.eq_nil_iff.mp rfl, List.append_nil, List.getLast?_singleton, form.getLast?_any only,
        Option.any_some]
    | cons d ds =>
      have more : cs ≠ [] := fun none ↦ List.cons_ne_nil d ds (rest.eq_nil_iff.mpr none)
      obtain ⟨c', cs, rfl⟩ := List.exists_cons_of_ne_nil more
      have ends := List.getLast?_eq_some_getLast (List.cons_ne_nil d ds)
      rw [List.getLast?_append, ends, Option.some_or, ← ends, ih, List.getLast?_cons_cons]

end Lowers

end Marks

/-- White space is a mark. -/
theorem isBlank_eq_false (h : isMark c = false) : isBlank c = false := by
  rw [isMark, markRanges, List.any_append, Bool.or_eq_false_iff] at h
  exact h.1

theorem beq_point_eq_false (h : isMark c = false) : (c == '.') = false := by
  rw [beq_eq_false_iff_ne]
  rintro rfl
  cases h

theorem beq_atSign_eq_false (h : isMark c = false) : (c == '@') = false := by
  rw [beq_eq_false_iff_ne]
  rintro rfl
  cases h

/-- White space at the ends neither comes nor goes. -/
theorem Lowers.trimmed (h : Lowers cs ds) (trimmed : Trimmed cs) : Trimmed ds where
  first := by
    rw [← Option.any_eq_false, h.head?_any fun _ ↦ isBlank_eq_false, Option.any_eq_false]
    exact trimmed.first
  last := by
    rw [← Option.any_eq_false, h.getLast?_any fun _ ↦ isBlank_eq_false, Option.any_eq_false]
    exact trimmed.last

end Outreach.Text
