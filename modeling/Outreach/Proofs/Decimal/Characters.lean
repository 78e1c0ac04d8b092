import Outreach.Proofs.Decimal.Numerals

/-!
# The characters of numbers

Integers are read back from the way they are written, and what is read as an integer is read as a
double, too. A text with a mark that no number is written with is read as neither.
-/

namespace Outreach

open Text

/-! ## Readers that take only some characters -/

namespace Text.Scan

variable {α β : Type} {P : Char → Prop} {ok : Char → Bool} {s t : Scan α} {cs : List Char}

/-- All characters that a reader takes are of some sort. -/
def Only (P : Char → Prop) (s : Scan α) : Prop :=
  ∀ cs a rest, Takes s cs a rest → ∀ c ∈ cs, P c ∨ c ∈ rest

theorem only_pure (a : α) : Only P (pure a : Scan α) := by
  rintro cs _ _ ⟨⟩ c hc
  exact .inr hc

theorem only_failure : Only P (failure : Scan α) := by
  rintro cs a rest ⟨⟩

theorem Only.bind {g : α → Scan β} (first : Only P s) (second : ∀ a, Only P (g a)) :
    Only P (s >>= g) := by
  intro cs b rest taken c hc
  change (s cs).bind (fun r ↦ g r.1 r.2) = some (b, rest) at taken
  obtain ⟨⟨a, behind⟩, front, back⟩ := Option.bind_eq_some_iff.mp taken
  rcases first cs a behind front c hc with here | there
  · exact .inl here
  · exact second a behind b rest back c there

theorem Only.ite {p : Prop} [Decidable p] (yes : Only P s) (no : Only P t) :
    Only P (if p then s else t) := by
  split
  · exact yes
  · exact no

theorem Only.orElse (first : Only P s) (second : Only P t) : Only P (orElse s t) := by
  intro cs a rest taken
  rcases Option.or_eq_some_iff.mp taken with front | ⟨-, back⟩
  · exact first cs a rest front
  · exact second cs a rest back

theorem only_next (sort : ∀ c, ok c = true → P c) : Only P (next ok) := by
  rintro (_ | ⟨d, ds⟩) a rest taken c hc
  · cases hc
  · by_cases good : ok d = true
    · simp only [Takes, next, good, if_true] at taken
      cases taken
      rcases List.mem_cons.mp hc with rfl | there
      · exact .inl (sort c good)
      · exact .inr there
    · simp [Takes, next, good] at taken

theorem only_optional (sort : ∀ c, ok c = true → P c) : Only P (optional ok) := by
  rintro (_ | ⟨d, ds⟩) a rest taken c hc
  · cases hc
  · by_cases good : ok d = true
    · simp only [Takes, optional, good, if_true] at taken
      cases taken
      rcases List.mem_cons.mp hc with rfl | there
      · exact .inl (sort c good)
      · exact .inr there
    · simp only [Takes, optional, good] at taken
      cases taken
      exact .inr hc

theorem only_takeWhile (sort : ∀ c, ok c = true → P c) : Only P (takeWhile ok) := by
  rintro cs a rest taken c hc
  cases taken
  rw [← List.takeWhile_append_dropWhile (p := ok) (l := cs)] at hc
  exact (List.mem_append.mp hc).imp_left fun here ↦ sort c (List.mem_takeWhile_imp here)

theorem only_anyNat (sort : ∀ c, isDigit c = true → P c) : Only P anyNat := by
  intro cs n rest taken
  simp only [Takes, anyNat] at taken
  split at taken
  · cases taken
  · cases taken
    refine only_takeWhile sort cs (cs.takeWhile isDigit) _ ?_
    have behind : cs.drop (cs.takeWhile isDigit).length = cs.dropWhile isDigit :=
      calc cs.drop (cs.takeWhile isDigit).length
        _ = (cs.takeWhile isDigit ++ cs.dropWhile isDigit).drop (cs.takeWhile isDigit).length := by
          rw [List.takeWhile_append_dropWhile]
        _ = cs.dropWhile isDigit := List.drop_left' rfl
    rw [Takes, takeWhile, behind]

/-- A text that is taken as a whole has no other characters. -/
theorem Only.all? {a : α} (h : Only P s) (taken : s.all? cs = some a) : ∀ c ∈ cs, P c := by
  intro c hc
  unfold Scan.all? at taken
  split at taken
  · next whole =>
    exact (h cs _ _ whole c hc).resolve_right List.not_mem_nil
  · cases taken

end Text.Scan

/-! ## Integers -/

namespace Text

variable {cs : List Char} {n : Int}

theorem digits_of_nat? {m : Nat} (h : nat? cs = some m) : cs ≠ [] ∧ ∀ c ∈ cs, isDigit c = true := by
  constructor
  · rintro rfl
    cases h
  · exact (Scan.only_anyNat fun _ digit ↦ digit).all? h

theorem nat?_decimal (m : Nat) : nat? (decimal m) = some m := by
  have stop : Scan.Stops isDigit [] := by simp [Scan.Stops]
  have taken := Scan.anyNat_takes 0 m stop
  rw [List.append_nil] at taken
  exact Scan.all?_of_takes (by simpa [padded, padLeft] using taken)

theorem int?_minus (cs : List Char) : int? ('-' :: cs) = (nat? cs).map fun m : Nat ↦ -(m : Int) := by
  cases read : nat? cs <;> simp [int?, read]

theorem int?_plus (cs : List Char) : int? ('+' :: cs) = (nat? cs).map fun m : Nat ↦ (m : Int) := by
  cases read : nat? cs <;> simp [int?, read]

/-- What has no sign is read as a natural number. -/
theorem int?_of_unsigned (minus : ∀ ds, cs ≠ '-' :: ds) (plus : ∀ ds, cs ≠ '+' :: ds) :
    int? cs = (nat? cs).map fun m : Nat ↦ (m : Int) := by
  unfold int?
  split
  · exact absurd rfl (minus _)
  · exact absurd rfl (plus _)
  · cases nat? cs <;> simp

/-- What begins with a digit has no sign. -/
theorem int?_of_isDigit {d : Char} {ds : List Char} (digit : isDigit d = true) :
    int? (d :: ds) = (nat? (d :: ds)).map fun m : Nat ↦ (m : Int) := by
  have minus : d ≠ '-' := ne_of_isDigit digit (by decide)
  have plus : d ≠ '+' := ne_of_isDigit digit (by decide)
  exact int?_of_unsigned (fun _ h ↦ minus (List.cons.inj h).1) fun _ h ↦ plus (List.cons.inj h).1

/-- An integer is read back from the way it is written. -/
theorem int?_decimalInt (n : Int) : int? (decimalInt n) = some n := by
  unfold decimalInt
  split
  · rw [int?_minus, nat?_decimal, Option.map_some]
    congr 1
    omega
  · obtain ⟨d, ds, digits, all⟩ := exists_decimal_eq n.natAbs
    rw [digits, int?_of_isDigit (all d List.mem_cons_self), ← digits, nat?_decimal,
      Option.map_some]
    congr 1
    omega

/-- An integer is written with a digit. -/
theorem exists_digit_mem_decimalInt (n : Int) : ∃ c ∈ decimalInt n, isDigit c = true := by
  obtain ⟨d, ds, digits, all⟩ := exists_decimal_eq n.natAbs
  refine ⟨d, ?_, all d List.mem_cons_self⟩
  unfold decimalInt
  split <;> simp [digits]

end Text

/-! ## Doubles -/

namespace Decimal

variable {cs : List Char}

/-- What is read as a natural number is a decimal. -/
theorem exists_magnitude?_of_nat? {m : Nat} (h : nat? cs = some m) :
    ∃ x, magnitude? cs = some x := by
  obtain ⟨some, all⟩ := digits_of_nat? h
  obtain ⟨d, ds, rfl⟩ := List.exists_cons_of_ne_nil some
  rw [magnitude?, Scan.all?_of_takes (literal_takes_digits all)]
  cases special? (d :: ds) with
  | some x => exact ⟨x, rfl⟩
  | none => exact ⟨_, rfl⟩

/-- What is read as an integer is read as a double. -/
theorem exists_float?_of_int? {n : Int} (h : int? cs = some n) : ∃ x, float? cs = some x := by
  unfold float?
  split
  · next cs =>
    rw [int?_minus] at h
    obtain ⟨m, read, -⟩ := Option.map_eq_some_iff.mp h
    obtain ⟨x, decimal⟩ := exists_magnitude?_of_nat? read
    exact ⟨-x, by rw [decimal, Option.map_some]⟩
  · next cs =>
    rw [int?_plus] at h
    obtain ⟨m, read, -⟩ := Option.map_eq_some_iff.mp h
    exact exists_magnitude?_of_nat? read
  · next minus plus =>
    rw [int?_of_unsigned minus plus] at h
    obtain ⟨m, read, -⟩ := Option.map_eq_some_iff.mp h
    exact exists_magnitude?_of_nat? read

/-- A mark that no number is written with: it comes before the letters, and is no digit, sign or
point. -/
def IsForeign (c : Char) : Prop :=
  c.toNat < 65 ∧ isDigit c = false ∧ c ≠ '+' ∧ c ≠ '-' ∧ c ≠ '.'

instance (c : Char) : Decidable (IsForeign c) := inferInstanceAs (Decidable (_ ∧ _))

theorem not_isForeign_of_isDigit {c : Char} (h : isDigit c = true) : ¬IsForeign c := by
  rintro ⟨-, none, -⟩
  rw [h] at none
  cases none

theorem not_isForeign_of_beq {c d : Char} (known : ¬IsForeign d) (h : (c == d) = true) :
    ¬IsForeign c := by
  rwa [eq_of_beq h]

theorem only_digit : Scan.Only (¬IsForeign ·) (Scan.takeWhile isDigit) :=
  Scan.only_takeWhile fun _ ↦ not_isForeign_of_isDigit

theorem only_anyNat : Scan.Only (¬IsForeign ·) Scan.anyNat :=
  Scan.only_anyNat fun _ ↦ not_isForeign_of_isDigit

theorem only_mark {d : Char} (known : ¬IsForeign d) :
    Scan.Only (¬IsForeign ·) (Scan.optional (· == d)) :=
  Scan.only_optional fun _ ↦ not_isForeign_of_beq known

theorem only_exponent : Scan.Only (¬IsForeign ·) exponent := by
  refine .bind (Scan.only_next fun c mark ↦ ?_) fun _ ↦ .bind (only_mark (by decide)) fun _ ↦ ?_
  · rcases Bool.or_eq_true_iff.mp mark with small | capital
    · exact not_isForeign_of_beq (by decide) small
    · exact not_isForeign_of_beq (by decide) capital
  · refine .ite (.bind only_anyNat fun _ ↦ Scan.only_pure _) ?_
    exact .bind (only_mark (by decide)) fun _ ↦ .bind only_anyNat fun _ ↦ Scan.only_pure _

theorem only_literal : Scan.Only (¬IsForeign ·) literal := by
  refine .bind only_digit fun whole ↦ .bind (only_mark (by decide)) fun point ↦ ?_
  have ending (fraction : List Char) : Scan.Only (¬IsForeign ·) (do
      if whole.isEmpty && fraction.isEmpty then failure
      let e ← Scan.orElse exponent (pure 0)
      return (⟨whole, fraction, e⟩ : Literal)) := by
    have rest : Scan.Only (¬IsForeign ·) (do
        let e ← Scan.orElse exponent (pure 0)
        return (⟨whole, fraction, e⟩ : Literal)) :=
      .bind (.orElse only_exponent (Scan.only_pure 0)) fun _ ↦ Scan.only_pure _
    exact .ite (.bind Scan.only_failure fun _ ↦ rest) rest
  exact .ite (.bind only_digit ending) (.bind (Scan.only_pure []) ending)

/-- What is not finite is written in letters. -/
theorem not_isForeign_of_special? {x : Float} (h : special? cs = some x) :
    ∀ c ∈ cs, ¬IsForeign c := by
  intro c hc foreign
  have same : c.toLower = c := by
    refine Char.toLower_eq_of_not_isUpper fun upper ↦ ?_
    simp only [Char.isUpper, decide_eq_true_eq] at upper
    exact absurd (UInt32.le_iff_toNat_le.mp upper.1) (Nat.not_le.mpr foreign.1)
  have small : c ∈ cs.map Char.toLower := List.mem_map.mpr ⟨c, hc, same⟩
  have absent {name : List Char} (letters : ∀ d ∈ name, 65 ≤ d.toNat) :
      cs.map Char.toLower ≠ name := by
    rintro rfl
    exact absurd (letters c small) (Nat.not_le.mpr foreign.1)
  simp only [special?] at h
  split at h
  · next infinite =>
    rcases Bool.or_eq_true_iff.mp infinite with short | long
    · exact absent (by simp) (of_decide_eq_true short)
    · exact absent (by simp) (of_decide_eq_true long)
  · split at h
    · next none => exact absent (by simp) none
    · cases h

theorem not_isForeign_of_magnitude? {x : Float} (h : magnitude? cs = some x) :
    ∀ c ∈ cs, ¬IsForeign c := by
  rcases Option.or_eq_some_iff.mp h with special | ⟨-, digits⟩
  · exact not_isForeign_of_special? special
  · obtain ⟨l, read, -⟩ := Option.map_eq_some_iff.mp digits
    exact only_literal.all? read

/-- A text with a foreign mark is read as no double. -/
theorem not_isForeign_of_float? {x : Float} (h : float? cs = some x) : ∀ c ∈ cs, ¬IsForeign c := by
  unfold float? at h
  split at h
  · obtain ⟨y, read, -⟩ := Option.map_eq_some_iff.mp h
    exact List.forall_mem_cons.mpr ⟨by decide, not_isForeign_of_magnitude? read⟩
  · exact List.forall_mem_cons.mpr ⟨by decide, not_isForeign_of_magnitude? h⟩
  · exact not_isForeign_of_magnitude? h

end Decimal

end Outreach
