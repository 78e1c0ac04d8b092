import Mathlib.Data.List.DropRight
import Outreach.Text.Blank

/-!
# Trimmed texts

Trimming leaves a text without white space at its ends. A text without such is left as it is, also
where white space is put around it, and nothing is left of a text exactly if all of it is white space.
-/

namespace Outreach.Text

/-- No white space at either end. -/
structure Trimmed (cs : List Char) : Prop where
  first : ∀ c, cs.head? = some c → isBlank c = false
  last : ∀ c, cs.getLast? = some c → isBlank c = false

variable {cs : List Char}

theorem trimStart_eq_self (h : ∀ c, cs.head? = some c → isBlank c = false) :
    trimStart cs = cs := by
  cases cs with
  | nil => rfl
  | cons c cs => exact List.dropWhile_cons_of_neg (Bool.eq_false_iff.mp (h c rfl))

theorem trimEnd_eq_self (h : ∀ c, cs.getLast? = some c → isBlank c = false) :
    trimEnd cs = cs := by
  refine List.rdropWhile_eq_self_iff.mpr fun nonempty ↦ ?_
  exact Bool.eq_false_iff.mp (h _ (List.getLast?_eq_some_getLast nonempty))

/-- What has no white space at its ends is left as it is. -/
theorem Trimmed.trimChars_eq (h : Trimmed cs) : trimChars cs = cs := by
  rw [trimChars, trimStart_eq_self h.first, trimEnd_eq_self h.last]

/-- A text without white space. -/
theorem Trimmed.of_forall (h : ∀ c ∈ cs, isBlank c = false) : Trimmed cs where
  first c hc := h c (List.mem_of_head? hc)
  last c hc := h c (List.mem_of_getLast? hc)

/-- A text between two others without white space. -/
theorem Trimmed.between {front back : List Char} (begins : front ≠ []) (ends : back ≠ [])
    (first : ∀ c ∈ front, isBlank c = false) (last : ∀ c ∈ back, isBlank c = false)
    (cs : List Char) : Trimmed (front ++ cs ++ back) where
  first c hc := by
    rw [List.append_assoc, List.head?_append_of_ne_nil _ begins] at hc
    exact first c (List.mem_of_head? hc)
  last c hc := by
    rw [List.getLast?_append_of_ne_nil _ ends] at hc
    exact last c (List.mem_of_getLast? hc)

theorem Trimmed.trim_eq {s : String} (h : Trimmed s.toList) : trim s = s := by
  rw [← String.toList_inj, toList_trim, h.trimChars_eq]

/-- Nothing is left of white space, and of nothing else. -/
theorem trimChars_eq_nil_iff : trimChars cs = [] ↔ ∀ c ∈ cs, isBlank c = true := by
  constructor
  · intro nothing
    -- what the trimming from behind takes away altogether does not begin with another character
    have front : trimStart cs = [] := by
      cases rest : trimStart cs with
      | nil => rfl
      | cons c rs =>
        have blank : isBlank c = true := by
          rw [trimChars, rest] at nothing
          exact List.rdropWhile_eq_nil_iff.mp nothing c List.mem_cons_self
        have other := List.head?_dropWhile_not isBlank cs
        rw [← trimStart, rest] at other
        exact absurd blank (Bool.eq_false_iff.mp other)
    exact List.dropWhile_eq_nil_iff.mp front
  · intro blank
    rw [trimChars, trimStart, List.dropWhile_eq_nil_iff.mpr blank, trimEnd_nil]

/-- A text with white space around it or none. -/
inductive Framed (cs : List Char) : List Char → Prop where
  | mk (front back : List Char) (before : ∀ c ∈ front, isBlank c = true)
      (behind : ∀ c ∈ back, isBlank c = true) : Framed cs (front ++ cs ++ back)

theorem Framed.refl (cs : List Char) : Framed cs cs := by
  have framed : Framed cs ([] ++ cs ++ []) :=
    .mk [] [] (List.forall_mem_nil _) (List.forall_mem_nil _)
  rwa [List.nil_append, List.append_nil] at framed

/-- The white space around a text is taken away. -/
theorem Framed.trimChars_eq {ds : List Char} (h : Framed cs ds) (trimmed : Trimmed cs) :
    trimChars ds = cs := by
  obtain ⟨front, back, before, behind⟩ := h
  by_cases nothing : cs = []
  · subst nothing
    rw [List.append_nil, trimChars_eq_nil_iff]
    exact List.forall_mem_append.mpr ⟨before, behind⟩
  · have started : trimStart (front ++ cs ++ back) = cs ++ back := by
      rw [List.append_assoc, trimStart, List.dropWhile_append_of_pos before]
      refine trimStart_eq_self fun c first ↦ trimmed.first c ?_
      rwa [List.head?_append_of_ne_nil _ nothing] at first
    have reversed : ∀ c ∈ back.reverse, isBlank c = true := fun c hc ↦
      behind c (List.mem_reverse.mp hc)
    rw [trimChars, started, trimEnd, List.reverse_append, List.dropWhile_append_of_pos reversed]
    exact trimEnd_eq_self trimmed.last

/-- A text begins after the trimming from behind as it did before it. -/
theorem head?_trimEnd {c : Char} (h : (trimEnd cs).head? = some c) : cs.head? = some c := by
  obtain ⟨rest, whole⟩ := List.rdropWhile_prefix isBlank cs
  have whole' : trimEnd cs ++ rest = cs := whole
  rw [← whole', List.head?_append, h, Option.some_or]

/-- Trimming leaves no white space at the ends. -/
theorem trimmed_trimChars (cs : List Char) : Trimmed (trimChars cs) where
  first c h := by
    have begins := head?_trimEnd h
    have other := List.head?_dropWhile_not isBlank cs
    rw [← trimStart, begins] at other
    exact other
  last c h := by
    have nonempty : trimChars cs ≠ [] := by
      intro nothing
      rw [nothing] at h
      cases h
    rw [List.getLast?_eq_some_getLast nonempty] at h
    cases h
    exact Bool.eq_false_iff.mpr (List.rdropWhile_last_not isBlank (trimStart cs) nonempty)

instance (cs : List Char) : Decidable (Trimmed cs) :=
  decidable_of_iff (trimChars cs = cs) ⟨fun h ↦ h ▸ trimmed_trimChars cs, Trimmed.trimChars_eq⟩

/-- White space and nothing else, as the test for it tells. -/
theorem isBlankText_iff {s : String} : isBlankText s = true ↔ ∀ c ∈ s.toList, isBlank c = true := by
  rw [isBlankText, List.isEmpty_iff, trimChars_eq_nil_iff]

/-- Trimming makes a text neither blank nor the contrary. -/
theorem isBlankText_trim (s : String) : isBlankText (trim s) = isBlankText s := by
  rw [isBlankText, toList_trim, (trimmed_trimChars s.toList).trimChars_eq, isBlankText]

/-- Something is left of a text that is not blank. -/
theorem trim_ne_empty {s : String} (h : isBlankText s = false) : trim s ≠ "" := by
  intro nothing
  have nothing' : trimChars s.toList = [] := by
    rw [← toList_trim, nothing]
    rfl
  rw [isBlankText, nothing'] at h
  cases h

end Outreach.Text
