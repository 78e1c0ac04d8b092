import Outreach.Customer.Request
import Outreach.Proofs.Text.Lowercase

/-!
# The normal form of an address

The normal form of an address for mail is its own normal form, and it has the form of an address
exactly if the address itself has: lower-casing moves neither the at sign nor the points, and it makes
no white space and takes none away.
-/

namespace Outreach.Customer

open Text

variable {cs ds p : List Char}

/-! ## The parts of an address -/

/-- Characters in front that are no at sign belong to the first part. -/
theorem splitAtSign_append (h : ∀ c ∈ p, (c == '@') = false) :
    splitAtSign (p ++ cs) = (splitAtSign cs).map fun (before, after) ↦ (p ++ before, after) := by
  induction p with
  | nil => simp
  | cons c p ih =>
    have other : c ≠ '@' := beq_eq_false_iff_ne.mp (h c List.mem_cons_self)
    rw [List.cons_append, splitAtSign, if_neg other,
      ih fun d hd ↦ h d (List.mem_cons_of_mem _ hd), Option.map_map]
    rfl

/-- In small letters, the parts of an address are the parts in small letters. -/
theorem splitAtSign_lowers (h : Lowers cs ds) :
    splitAtSign cs = none ∧ splitAtSign ds = none ∨
      ∃ before after before' after', splitAtSign cs = some (before, after) ∧
        splitAtSign ds = some (before', after') ∧ Lowers before before' ∧ Lowers after after' := by
  induction h with
  | nil => exact .inl ⟨rfl, rfl⟩
  | @cons c p cs ds form rest ih =>
    by_cases here : c = '@'
    · subst here
      have same : p = ['@'] := by
        cases form with
        | same => rfl
        | letters letter => cases letter
      subst same
      exact .inr ⟨[], cs, [], ds, rfl, rfl, .nil, rest⟩
    · have apart : ∀ d ∈ p, (d == '@') = false := by
        cases form with
        | same => simpa using here
        | letters _ _ _ letters => exact fun d hd ↦ beq_atSign_eq_false (letters d hd)
      rw [splitAtSign, if_neg here, splitAtSign_append apart]
      rcases ih with ⟨none, none'⟩ | ⟨before, after, before', after', some, some', front, back⟩
      · exact .inl ⟨by rw [none]; rfl, by rw [none']; rfl⟩
      · refine .inr ⟨c :: before, after, p ++ before', after', ?_, ?_, .cons form front, back⟩
        · rw [some]
          rfl
        · rw [some']
          rfl

/-- Points come and go neither inside nor at the ends. -/
theorem isDomain_lowers (h : Lowers cs ds) : isDomain ds = isDomain cs := by
  have point (xs : List Char) : isDomain xs =
      (xs.any (· == '.') && !xs.head?.any (· == '.') && !xs.getLast?.any (· == '.')) := by
    rw [isDomain, List.any_beq']
    cases xs.head? <;> cases xs.getLast? <;> simp [bne]
  have only : ∀ c, isMark c = false → (c == '.') = false := fun _ ↦ beq_point_eq_false
  rw [point, point, h.any_eq only, h.head?_any only, h.getLast?_any only]

/-- An address in small letters has the form of one if and only if the address has. -/
theorem isEmailChars_lowers (h : Lowers cs ds) : isEmailChars ds = isEmailChars cs := by
  have blank := h.any_eq fun _ ↦ isBlank_eq_false
  unfold isEmailChars
  rcases splitAtSign_lowers h with
    ⟨none, none'⟩ | ⟨before, after, before', after', some, some', front, back⟩
  · rw [none, none']
  · have nothing : before'.isEmpty = before.isEmpty := by
      rw [Bool.eq_iff_iff, List.isEmpty_iff, List.isEmpty_iff]
      exact front.eq_nil_iff
    simp only [some, some', nothing, isDomain_lowers back, blank]

/-! ## The normal form -/

variable {s : String}

theorem toList_normalizeEmail (s : String) :
    (normalizeEmail s).toList = lowerChars (trimChars s.toList) := by
  rw [normalizeEmail, toList_lower, toList_trim]

/-- The normal form has no white space around it. -/
theorem trimmed_normalizeEmail (s : String) : Trimmed (normalizeEmail s).toList := by
  rw [toList_normalizeEmail]
  exact (lowers_lowerChars _).trimmed (trimmed_trimChars _)

/-- The normal form is in small letters. -/
theorem lower_normalizeEmail (s : String) : lower (normalizeEmail s) = normalizeEmail s :=
  lower_lower (trim s)

/-- The normal form is its own normal form. -/
theorem normalizeEmail_normalizeEmail (s : String) :
    normalizeEmail (normalizeEmail s) = normalizeEmail s := by
  have trimmed : trim (normalizeEmail s) = normalizeEmail s := by
    rw [trim, (trimmed_normalizeEmail s).trimChars_eq, String.ofList_toList]
  rw [normalizeEmail, trimmed, lower_normalizeEmail]

/-- The normal form has the form of an address if and only if the address has. -/
theorem isEmail_normalizeEmail (s : String) : isEmail (normalizeEmail s) = isEmail s := by
  rw [isEmail, (trimmed_normalizeEmail s).trimChars_eq, toList_normalizeEmail,
    isEmailChars_lowers (lowers_lowerChars _), isEmail]

end Outreach.Customer
