import Outreach.Proofs.Text.Lowercase

/-!
# The letters from A to Z

Neither trimming nor lower-casing tells a letter from A to Z from its small form, not even where a
capital sigma beside it is looked at. So texts that differ only by the case of such letters and by
white space around them become the same when they are trimmed and put into small letters.
-/

namespace Outreach.Text

variable {c : Char} {cs ds : List Char}

/-! ## Single letters -/

def latinCapitals : List Char := (List.range' 65 26).map Char.ofNat

/-- All other characters are left alone. -/
theorem mem_latinCapitals (h : c.toLower ≠ c) : c ∈ latinCapitals := by
  unfold Char.toLower at h
  split at h
  · next between =>
    obtain ⟨least, most⟩ : 65 ≤ c.toNat ∧ c.toNat ≤ 90 := between
    refine List.mem_map.mpr ⟨c.toNat, List.mem_range'_1.mpr ?_, Char.ofNat_toNat c⟩
    omega
  · exact absurd rfl h

/-- What does not tell the letters from A to Z from their small forms tells no character from its. -/
theorem apply_toLower {α : Type} {f : Char → α}
    (same : latinCapitals.map (fun c ↦ f c.toLower) = latinCapitals.map f) (c : Char) :
    f c.toLower = f c := by
  by_cases small : c.toLower = c
  · rw [small]
  · exact List.map_inj_left.mp same c (mem_latinCapitals small)

theorem isBlank_toLower (c : Char) : isBlank c.toLower = isBlank c := apply_toLower (by decide) c

theorem isIgnorable_toLower (c : Char) : isIgnorable c.toLower = isIgnorable c :=
  apply_toLower (by decide +kernel) c

theorem isCased_toLower (c : Char) : isCased c.toLower = isCased c :=
  apply_toLower (by decide +kernel) c

theorem lowerChar_toLower (c : Char) : lowerChar c.toLower = lowerChar c :=
  apply_toLower (by decide +kernel) c

theorem toLower_eq_sigma_iff : c.toLower = 'Σ' ↔ c = 'Σ' := by
  have same := apply_toLower (f := (· == 'Σ')) (by decide) c
  rw [← beq_iff_eq, same, beq_iff_eq]

/-! ## Texts -/

theorem trimChars_map_toLower (cs : List Char) :
    trimChars (cs.map Char.toLower) = (trimChars cs).map Char.toLower := by
  have blank : isBlank ∘ Char.toLower = isBlank := funext isBlank_toLower
  rw [trimChars, trimStart, List.dropWhile_map, blank, trimEnd, ← List.map_reverse,
    List.dropWhile_map, blank, ← List.map_reverse]
  rfl

theorem meetsCased_map_toLower (cs : List Char) :
    meetsCased (cs.map Char.toLower) = meetsCased cs := by
  have ignorable : isIgnorable ∘ Char.toLower = isIgnorable := funext isIgnorable_toLower
  rw [meetsCased, List.dropWhile_map, ignorable, meetsCased]
  cases cs.dropWhile isIgnorable with
  | nil => rfl
  | cons c cs => exact isCased_toLower c

theorem lowerFrom_map_toLower (before cs : List Char) :
    lowerFrom (before.map Char.toLower) (cs.map Char.toLower) = lowerFrom before cs := by
  induction cs generalizing before with
  | nil => rfl
  | cons c cs ih =>
    have rest := ih (c :: before)
    have word : endsWord (before.map Char.toLower) (cs.map Char.toLower) = endsWord before cs := by
      rw [endsWord, meetsCased_map_toLower, meetsCased_map_toLower, endsWord]
    rw [List.map_cons] at rest ⊢
    rw [lowerFrom, lowerFrom, rest, word, lowerChar_toLower]
    by_cases sigma : c = 'Σ'
    · rw [if_pos sigma, if_pos (toLower_eq_sigma_iff.mpr sigma)]
    · rw [if_neg sigma, if_neg (mt toLower_eq_sigma_iff.mp sigma)]

/-- In small letters, nothing is left of the case of the letters from A to Z. -/
theorem lowerChars_map_toLower (cs : List Char) : lowerChars (cs.map Char.toLower) = lowerChars cs :=
  lowerFrom_map_toLower [] cs

/-! ## White space around a text -/

/-- A text is what is left when it is trimmed, with white space around it. -/
theorem framed_trimChars (cs : List Char) : Framed (trimChars cs) cs := by
  have whole : cs.takeWhile isBlank ++ trimChars cs ++ (trimStart cs).rtakeWhile isBlank = cs := by
    have back : trimChars cs ++ (trimStart cs).rtakeWhile isBlank = trimStart cs :=
      List.rdropWhile_append_rtakeWhile ..
    rw [List.append_assoc, back]
    exact List.takeWhile_append_dropWhile
  have framed : Framed (trimChars cs)
      (cs.takeWhile isBlank ++ trimChars cs ++ (trimStart cs).rtakeWhile isBlank) :=
    .mk _ _ (fun _ h ↦ List.mem_takeWhile_imp h) (fun _ h ↦ List.mem_rtakeWhile_imp h)
  rwa [whole] at framed

theorem Framed.trans {es : List Char} (h : Framed cs ds) (h' : Framed ds es) : Framed cs es := by
  obtain ⟨front, back, before, behind⟩ := h
  obtain ⟨front', back', before', behind'⟩ := h'
  have framed : Framed cs ((front' ++ front) ++ cs ++ (back ++ back')) :=
    .mk _ _ (List.forall_mem_append.mpr ⟨before', before⟩)
      (List.forall_mem_append.mpr ⟨behind, behind'⟩)
  simpa only [List.append_assoc] using framed

/-- White space around a text makes no difference to what is left of it. -/
theorem Framed.trimChars_congr (h : Framed cs ds) : trimChars ds = trimChars cs :=
  ((framed_trimChars cs).trans h).trimChars_eq (trimmed_trimChars cs)

/-! ## Texts that are alike -/

/-- The texts differ at most by white space around them and by the case of the letters from A to Z. -/
def Alike (s t : String) : Prop :=
  ∃ cs ds, Framed cs s.toList ∧ Framed ds t.toList ∧ cs.map Char.toLower = ds.map Char.toLower

theorem alike_iff {s t : String} :
    Alike s t ↔ (trimChars s.toList).map Char.toLower = (trimChars t.toList).map Char.toLower := by
  constructor
  · rintro ⟨cs, ds, hs, ht, same⟩
    rw [hs.trimChars_congr, ht.trimChars_congr, ← trimChars_map_toLower, same,
      trimChars_map_toLower]
  · exact fun same ↦ ⟨_, _, framed_trimChars _, framed_trimChars _, same⟩

instance (s t : String) : Decidable (Alike s t) := decidable_of_iff' _ alike_iff

end Outreach.Text
