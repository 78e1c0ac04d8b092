import Outreach.Proofs.Text.Lowercase

/-!
# Parts of texts in small letters

Lower-casing goes through a text character by character, and looks only at a capital sigma together
with what stands around it. So a part of a text becomes what it becomes by itself, unless one of its
capital sigmas ends a word in one of the two and not in the other. That can only be the first or the
last of the characters of the part that words do not look past.
-/

namespace Outreach.Text

variable {before after part text cs ds : List Char}

/-! ## A part between its surroundings -/

/-- Lower-casing of a part of a text, after `before`, which is held nearest character first, and in
front of `after`. -/
def lowerWithin (before after : List Char) : List Char → List Char
  | [] => []
  | c :: cs =>
    (if c = 'Σ' then [if endsWord before (cs ++ after) then 'ς' else 'σ'] else lowerChar c) ++
      lowerWithin (c :: before) after cs

theorem lowerFrom_append (before cs ds : List Char) :
    lowerFrom before (cs ++ ds) = lowerWithin before ds cs ++ lowerFrom (cs.reverse ++ before) ds := by
  induction cs generalizing before with
  | nil => rfl
  | cons c cs ih =>
    rw [List.cons_append, lowerFrom, ih, lowerWithin, List.reverse_cons, List.append_assoc,
      List.append_assoc, List.singleton_append]

/-- What becomes of a text is put together from what becomes of its parts in their places. -/
theorem lowerChars_append (before part after : List Char) :
    lowerChars (before ++ part ++ after) =
      lowerWithin [] (part ++ after) before ++ lowerWithin before.reverse after part ++
        lowerFrom (part.reverse ++ before.reverse) after := by
  rw [lowerChars, List.append_assoc, lowerFrom_append, lowerFrom_append, List.append_nil,
    List.append_assoc]

/-! ## Ends of words -/

/-- Each capital sigma of a part ends a word between what stands around the part exactly if it does
so in the part by itself. -/
def EndsAlike (before after part : List Char) : Prop :=
  ∀ cs ds, part = cs ++ 'Σ' :: ds →
    endsWord (cs.reverse ++ before) (ds ++ after) = endsWord cs.reverse ds

/-- The places of capital sigmas behind a first character, and that character if it is one. -/
theorem forall_cons_eq_append_iff {P : List Char → List Char → Prop} {c : Char} :
    (∀ xs ys, c :: cs = xs ++ 'Σ' :: ys → P xs ys) ↔
      (c = 'Σ' → P [] cs) ∧ ∀ xs ys, cs = xs ++ 'Σ' :: ys → P (c :: xs) ys := by
  constructor
  · intro h
    refine ⟨?_, fun xs ys split ↦ h (c :: xs) ys (by rw [split, List.cons_append])⟩
    rintro rfl
    exact h [] cs rfl
  · rintro ⟨here, there⟩ xs ys split
    cases xs with
    | nil =>
      obtain ⟨rfl, rfl⟩ := List.cons.inj split
      exact here rfl
    | cons x xs =>
      rw [List.cons_append] at split
      obtain ⟨rfl, rest⟩ := List.cons.inj split
      exact there xs ys rest

/-- The two small forms of sigma differ. -/
theorem sigma_inj {a b : Bool} :
    (if a then 'ς' else 'σ') = (if b then 'ς' else 'σ') ↔ a = b := by
  cases a <;> cases b <;> decide

/-- What follows `seen` in a part becomes what it becomes without surroundings exactly if its capital
sigmas end words alike. -/
theorem lowerWithin_eq_lowerFrom_iff (seen before after cs : List Char) :
    lowerWithin (seen ++ before) after cs = lowerFrom seen cs ↔
      ∀ xs ys, cs = xs ++ 'Σ' :: ys →
        endsWord (xs.reverse ++ (seen ++ before)) (ys ++ after) =
          endsWord (xs.reverse ++ seen) ys := by
  induction cs generalizing seen with
  | nil => simp [lowerWithin]
  | cons c cs ih =>
    have rest := ih (c :: seen)
    rw [List.cons_append] at rest
    rw [lowerWithin, lowerFrom, forall_cons_eq_append_iff]
    simp only [List.reverse_cons, List.append_assoc, List.singleton_append, ← rest,
      List.reverse_nil, List.nil_append]
    by_cases sigma : c = 'Σ'
    · rw [if_pos sigma, if_pos sigma, List.singleton_append, List.singleton_append,
        List.cons.injEq, sigma_inj, imp_iff_right sigma]
    · rw [if_neg sigma, if_neg sigma, List.append_cancel_left_eq]
      exact (and_iff_right fun capital ↦ absurd capital sigma).symm

/-- A part becomes in its place what it becomes by itself exactly if its capital sigmas end words
alike. -/
theorem lowerWithin_eq_iff :
    lowerWithin before after part = lowerChars part ↔ EndsAlike before after part := by
  have whole := lowerWithin_eq_lowerFrom_iff [] before after part
  simp only [List.nil_append, List.append_nil] at whole
  exact whole

/-! ## Parts that stay together -/

/-- The part stands in the text, at a place where its capital sigmas end words as they do in the part
by itself. -/
def StandsIn (part text : List Char) : Prop :=
  ∃ before after, before ++ part ++ after = text ∧ EndsAlike before.reverse after part

/-- In small letters, a part stands in the text as before. -/
theorem StandsIn.lowerChars (h : StandsIn part text) : lowerChars part <:+: lowerChars text := by
  obtain ⟨before, after, rfl, alike⟩ := h
  rw [lowerChars_append, lowerWithin_eq_iff.mpr alike]
  exact ⟨_, _, rfl⟩

/-! ## Parts whose surroundings do not matter -/

/-- The first character that words do not look past, if there is one, is not a capital sigma. -/
def BeginsPlainly (cs : List Char) : Prop := cs.find? (fun c ↦ !isIgnorable c) ≠ some 'Σ'

instance (cs : List Char) : Decidable (BeginsPlainly cs) := inferInstanceAs (Decidable (_ ≠ _))

theorem meetsCased_eq (cs : List Char) :
    meetsCased cs = (cs.find? fun c ↦ !isIgnorable c).any isCased := by
  rw [List.find?_not_eq_head?_dropWhile, meetsCased]
  cases cs.dropWhile isIgnorable <;> rfl

/-- Words do not look past a capital sigma. If a text does not begin with it, there is something before
it in the text that they do not look past either, and what stands around the text does not count. -/
theorem BeginsPlainly.meetsCased_append (h : BeginsPlainly (cs ++ 'Σ' :: ds)) (before : List Char) :
    meetsCased (cs.reverse ++ before) = meetsCased cs.reverse := by
  have seen : cs.reverse.find? (fun c ↦ !isIgnorable c) ≠ none := by
    intro nothing
    refine h ?_
    have nothing' : cs.find? (fun c ↦ !isIgnorable c) = none := by simpa using nothing
    rw [List.find?_append, nothing', Option.none_or]
    exact List.find?_cons_of_pos (by decide +kernel)
  obtain ⟨c, hc⟩ := Option.ne_none_iff_exists'.mp seen
  rw [meetsCased_eq, meetsCased_eq, List.find?_append, hc, Option.some_or]

/-- A part that neither begins nor ends with a capital sigma, ignorable characters aside, becomes the
same between any surroundings. -/
theorem endsAlike_of_plain (first : BeginsPlainly part) (last : BeginsPlainly part.reverse) :
    EndsAlike before after part := by
  rintro cs ds rfl
  rw [List.reverse_append, List.reverse_cons, List.append_assoc, List.singleton_append] at last
  have back := first.meetsCased_append before
  have front := last.meetsCased_append after
  rw [List.reverse_reverse] at front
  rw [endsWord, endsWord, back, front]

theorem standsIn_of_infix (first : BeginsPlainly part) (last : BeginsPlainly part.reverse)
    (h : part <:+: text) : StandsIn part text := by
  obtain ⟨before, after, whole⟩ := h
  exact ⟨before, after, whole, endsAlike_of_plain first last⟩

end Outreach.Text
