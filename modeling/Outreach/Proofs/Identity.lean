import Mathlib.Algebra.Group.Nat.Defs
import Mathlib.Order.Lattice
import Outreach.Id
import Outreach.Proofs.Text.Numeral

/-!
# Identities apart

Identities are in a linear order. The text of an identity is read as that identity, so that two of
them never have the same text: what is filed under the text of an identity is filed under that
identity alone.
-/

namespace Outreach

namespace Id

open Text

/-- Identities in the order of their numbers. -/
instance : LinearOrder Id where
  le a b := a.le b = true
  le_refl a := by simp [Id.le]
  le_trans a b c hab hbc := by
    simp only [Id.le, decide_eq_true_eq] at *
    omega
  le_antisymm a b hab hba := by
    simp only [Id.le, decide_eq_true_eq] at hab hba
    obtain ⟨a⟩ := a
    obtain ⟨b⟩ := b
    exact congrArg Id.mk (BitVec.eq_of_toNat_eq (Nat.le_antisymm hab hba))
  le_total a b := by
    simp only [Id.le, decide_eq_true_eq]
    omega
  toDecidableLE a b := inferInstanceAs (Decidable (a.le b = true))
  toDecidableEq := inferInstance

/-- The test for the order decides it. -/
@[simp] theorem le_eq_true {a b : Id} : a.le b = true ↔ a ≤ b := Iff.rfl

/-! ## Texts -/

/-- The groups of a list of digits are the list again. -/
theorem joined_groups (ds : List Char) : ds.take 8 ++ (ds.drop 8).take 4 ++ (ds.drop 12).take 4 ++
    (ds.drop 16).take 4 ++ ds.drop 20 = ds := by
  have step (n : Nat) : (ds.drop n).take 4 ++ ds.drop (n + 4) = ds.drop n := by
    rw [← List.drop_drop, List.take_append_drop]
  rw [List.append_assoc, step 16, List.append_assoc, step 12, List.append_assoc, step 8,
    List.take_append_drop]

theorem length_grouped {ds : List Char} (h : ds.length = 32) : (grouped ds).length = 36 := by
  simp [grouped, h]

/-- The digits are found between the hyphens. -/
theorem ungrouped?_grouped {ds : List Char} (h : ds.length = 32) :
    ungrouped? (grouped ds) = some ds := by
  have digits : (grouped ds).take 8 ++ ((grouped ds).drop 9).take 4 ++
      ((grouped ds).drop 14).take 4 ++ ((grouped ds).drop 19).take 4 ++ (grouped ds).drop 24 =
      ds := by
    refine Eq.trans ?_ (joined_groups ds)
    simp (disch := simp [h]) [grouped, List.drop_append, List.drop_of_length_le, h]
  rw [ungrouped?, digits]
  exact if_pos rfl

/-- The digits of an identity are read as the identity. -/
theorem ofDigits?_hexDigits (id : Id) : ofDigits? (hexDigits 32 id.bits.toNat) = some id := by
  have bound : id.bits.toNat % 16 ^ 32 = id.bits.toNat := Nat.mod_eq_of_lt id.bits.isLt
  rw [ofDigits?, if_pos (length_hexDigits _ _), hexValueOf?_hexDigits, bound]
  exact congrArg (fun bits ↦ some (Id.mk bits)) (BitVec.ofNat_toNat 128 id.bits)

/-- The text of an identity is read as the identity. -/
theorem ofText?_text (id : Id) : ofText? id.text = some id := by
  have digits : (hexDigits 32 id.bits.toNat).length = 32 := length_hexDigits _ _
  have length : id.chars.length = 36 := length_grouped digits
  have groups : ofGroups? id.chars = some id := by
    rw [ofGroups?, chars, ungrouped?_grouped digits, Option.bind_some, ofDigits?_hexDigits]
  have short : ¬id.chars.length = 32 := by omega
  rw [ofText?, text, String.toList_ofList]
  unfold ofChars?
  rw [if_neg short, if_pos length, groups]

/-- Two identities with one text are the same. -/
theorem text_injective : Function.Injective text := by
  intro a b same
  have read := ofText?_text a
  rw [same, ofText?_text b] at read
  exact (Option.some.inj read).symm

end Id

end Outreach
