import Outreach.Proofs.Calendar.Days
import Outreach.Proofs.Calendar.RoundTrip
import Outreach.Proofs.Text.Blank

/-!
# Spellings of instants

A moment of a year of four digits is read from its texts, with an offset by the strict grammar, and
without one, which the strict grammar refuses, by the free grammar. A day is read from its date alone,
in a year of any sign and number of digits; it is the beginning of the day, and neither of the grammars
for a time of day mistakes it for one.
-/

namespace Outreach.Calendar

open Text Text.Scan

variable {cs : List Char}

namespace Scan

/-! ## The strict grammar -/

theorem two_takes {n : Nat} (h : n < 100) (cs : List Char) :
    Takes (nat 2 2) (padded 2 n ++ cs) n cs :=
  nat_takes 2 (by decide) (by decide) h cs

/-- A year of four digits. -/
theorem four_takes {y : Int} (h : 0 ≤ y ∧ y ≤ 9999) (cs : List Char) :
    Takes (nat 4 4) (yearChars y ++ cs) y.toNat cs := by
  rw [yearChars, if_pos h]
  exact nat_takes 4 (by decide) (by decide) (by omega) cs

/-- A year with a sign is none of four digits. -/
theorem four_refuses {y : Int} (h : ¬(0 ≤ y ∧ y ≤ 9999)) (cs : List Char) :
    Refuses (nat 4 4) (yearChars y ++ cs) := by
  rw [yearChars, if_neg h]
  by_cases negative : y < 0
  · rw [if_pos negative]
    rfl
  · rw [if_neg negative]
    rfl

end Scan

/-- An offset from UTC as it is written: the letter for none, or a sign, hours and minutes. -/
inductive Zone : Int → List Char → Prop where
  | utc (c : Char) (letter : c = 'Z' ∨ c = 'z') : Zone 0 [c]
  | east (hours minutes : Nat) (day : hours ≤ 23) (hour : minutes ≤ 59) :
      Zone (hours * 3600 + minutes * 60) ('+' :: padded 2 hours ++ ':' :: padded 2 minutes)
  | west (c : Char) (minus : c = '-' ∨ c = '−') (hours minutes : Nat) (day : hours ≤ 23)
      (hour : minutes ≤ 59) :
      Zone (-(hours * 3600 + minutes * 60)) (c :: padded 2 hours ++ ':' :: padded 2 minutes)

namespace Moment

variable {m : Moment}

/-- The texts of a moment with its offset, the date and the time of day apart by a letter or a space. -/
inductive Zoned (m : Moment) : List Char → Prop where
  | mk (c : Char) (separator : c = 'T' ∨ c = 't' ∨ c = ' ') {ds zone : List Char}
      (fraction : Fraction m.time.nanos ds) (offset : Zone m.offset zone) :
      Zoned m (m.date.chars ++ c :: m.time.chars ++ ds ++ zone)

/-- The texts of a moment without its offset. -/
inductive OffsetFree (m : Moment) : List Char → Prop where
  | mk {ds : List Char} (fraction : Fraction m.time.nanos ds) :
      OffsetFree m (m.date.chars ++ 'T' :: m.time.chars ++ ds)

end Moment

namespace Scan

/-- An offset begins neither with a digit nor with a point. -/
theorem stops_zone {seconds : Int} {zone : List Char} (h : Zone seconds zone) :
    Stops (fun c ↦ isDigit c || c == '.') zone := by
  rcases h with ⟨c, rfl | rfl⟩ | ⟨hours, minutes⟩ | ⟨c, rfl | rfl, hours, minutes⟩ <;>
    exact stops_cons.mpr (by decide)

theorem plus_takes (cs : List Char) : Takes sign ('+' :: cs) 1 cs := rfl

theorem minus_takes {c : Char} (h : c = '-' ∨ c = '−') (cs : List Char) :
    Takes sign (c :: cs) (-1) cs := by
  rcases h with rfl | rfl <;> rfl

/-- Hours and minutes are taken behind a sign. -/
theorem signed_takes {c : Char} {s : Int} (sign : ∀ cs, Takes sign (c :: cs) s cs)
    (other : (c == 'Z' || c == 'z') = false) {hours minutes : Nat} (day : hours ≤ 23)
    (hour : minutes ≤ 59) :
    Takes (offset (char ':')) (c :: padded 2 hours ++ ':' :: padded 2 minutes)
      (s * (hours * 3600 + minutes * 60)) [] := by
  have fits : ¬60 ≤ minutes := by omega
  refine (optional_takes_none (stops_cons.mpr other)).bind ?_
  refine (sign _).bind ?_
  refine (two_takes (by omega) _).bind ?_
  refine (char_takes _ _).bind ?_
  rw [← List.append_nil (padded 2 minutes)]
  refine (two_takes (by omega) _).bind ?_
  rw [if_neg fits]
  exact .pure _ _

/-- An offset is taken as it is written. -/
theorem offset_takes {seconds : Int} {zone : List Char} (h : Zone seconds zone) :
    Takes (offset (char ':')) zone seconds [] := by
  cases h with
  | utc c letter => rcases letter with rfl | rfl <;> rfl
  | east hours minutes day hour =>
    have taken := signed_takes plus_takes rfl day hour
    rwa [Int.one_mul] at taken
  | west c minus hours minutes day hour =>
    have other : (c == 'Z' || c == 'z') = false := by rcases minus with rfl | rfl <;> rfl
    have taken := signed_takes (minus_takes minus) other day hour
    rwa [Int.neg_one_mul] at taken

theorem separator_takes {c : Char} (h : c = 'T' ∨ c = 't' ∨ c = ' ') :
    Takes separator (c :: cs) () cs := by
  rcases h with rfl | rfl | rfl <;> rfl

/-- In a year of four digits the strict grammar takes a date and a time of day, and goes on with the
offset. -/
theorem strict_eq {m : Moment} (exists' : m.Exists)
    (common : 0 ≤ m.date.year ∧ m.date.year ≤ 9999) {c : Char} {ds : List Char}
    (between : c = 'T' ∨ c = 't' ∨ c = ' ') (nanos : Fraction m.time.nanos ds)
    (stop : Stops (fun c ↦ isDigit c || c == '.') cs) :
    strict (m.date.chars ++ c :: m.time.chars ++ ds ++ cs) =
      (do let off ← offset (char ':'); return { m with offset := off }) cs := by
  obtain ⟨date, ⟨hour, minute, second⟩, -⟩ := exists'
  obtain ⟨-, ⟨-, month⟩, -, day⟩ := Date.isValid_iff.mp date
  have most := Date.daysInMonth_le m.date.year m.date.month
  have year : (m.date.year.toNat : Int) = m.date.year := Int.toNat_of_nonneg common.1
  simp only [Date.chars, TimeOfDay.chars, List.append_assoc, List.cons_append]
  refine (four_takes common _).bind_eq.trans ?_
  refine (char_takes _ _).bind_eq.trans ?_
  refine (two_takes (by omega) _).bind_eq.trans ?_
  refine (char_takes _ _).bind_eq.trans ?_
  refine (two_takes (by omega) _).bind_eq.trans ?_
  refine (separator_takes between).bind_eq.trans ?_
  refine (two_takes (by omega) _).bind_eq.trans ?_
  refine (char_takes _ _).bind_eq.trans ?_
  refine (two_takes (by omega) _).bind_eq.trans ?_
  refine (char_takes _ _).bind_eq.trans ?_
  refine (two_takes (by omega) _).bind_eq.trans ?_
  refine (fraction_takes nanos stop).bind_eq.trans ?_
  rw [year]

/-- The strict grammar reads the texts of a moment with its offset. -/
theorem strict_takes {m : Moment} (exists' : m.Exists)
    (common : 0 ≤ m.date.year ∧ m.date.year ≤ 9999) (text : m.Zoned cs) : Takes strict cs m [] := by
  obtain ⟨c, between, nanos, zone⟩ := text
  refine (strict_eq exists' common between nanos (stops_zone zone)).trans ?_
  exact (offset_takes zone).map _

/-- Without an offset a moment is not one of the strict grammar. -/
theorem strict_refuses {m : Moment} (exists' : m.Exists)
    (common : 0 ≤ m.date.year ∧ m.date.year ≤ 9999) (text : m.OffsetFree cs) :
    Refuses strict cs := by
  obtain ⟨nanos⟩ := text
  rw [← List.append_nil (_ ++ _)]
  exact strict_eq exists' common (.inl rfl) nanos (by simp [Stops])

/-- The free grammar reads the texts of a moment without an offset. -/
theorem offsetFree_takes {m : Moment} (exists' : m.Exists) (utc : m.offset = 0)
    (text : m.OffsetFree cs) : Takes offsetFree cs m [] := by
  obtain ⟨nanos⟩ := text
  have moment : ⟨m.date, m.time, 0⟩ = m := by rw [← utc]
  rw [← List.append_nil (_ ++ _)]
  simp only [List.append_assoc, List.cons_append]
  refine (date_takes (fun cs ↦ .pure () _) exists'.date _).bind ?_
  refine (char_takes _ _).bind ?_
  rw [← moment]
  exact (time_takes (fun cs ↦ .pure () _) exists'.time nanos (by simp [Stops])).map _

/-- A date alone has no time of day behind it. -/
theorem strict_refuses_date {d : Date} (valid : d.isValid = true) : Refuses strict d.chars := by
  obtain ⟨-, ⟨-, month⟩, -, day⟩ := Date.isValid_iff.mp valid
  have most := Date.daysInMonth_le d.year d.month
  by_cases common : 0 ≤ d.year ∧ d.year ≤ 9999
  · simp only [Date.chars, List.append_assoc, List.cons_append]
    refine .behind (four_takes common _) ?_
    refine .behind (char_takes _ _) ?_
    refine .behind (two_takes (by omega) _) ?_
    refine .behind (char_takes _ _) ?_
    rw [← List.append_nil (padded 2 d.day)]
    refine .behind (two_takes (by omega) _) ?_
    rfl
  · simp only [Date.chars, List.append_assoc]
    exact .bind (four_refuses common _)

/-! ## Dates alone -/

theorem date_takes_bare {d : Date} (valid : d.isValid = true) :
    Takes (date (pure ())) d.chars d [] := by
  rw [← List.append_nil d.chars]
  exact date_takes (fun cs ↦ .pure () _) valid []

/-- A date alone is not followed by a time of day. -/
theorem offsetFree_refuses_date {d : Date} (valid : d.isValid = true) : Refuses offsetFree d.chars :=
  .behind (date_takes_bare valid) rfl

theorem bareDate_takes {d : Date} (valid : d.isValid = true) :
    Takes bareDate d.chars ⟨d, .midnight, 0⟩ [] := (date_takes_bare valid).map _

end Scan

/-! ## White space -/

/-- Neither a digit nor a sign is white space. -/
theorem isBlank_yearChars {y : Int} : ∀ c ∈ yearChars y, isBlank c = false := by
  have digits {n : Nat} : ∀ c ∈ padded 4 n, isBlank c = false := fun c ↦ isBlank_of_mem_padded
  unfold yearChars
  split
  · exact digits
  · refine List.forall_mem_cons.mpr ⟨?_, digits⟩
    split <;> decide

theorem Date.isBlank_chars (d : Date) : ∀ c ∈ d.chars, isBlank c = false := by
  have hyphen : isBlank '-' = false := by decide
  simp only [Date.chars, List.forall_mem_append, List.forall_mem_cons]
  exact ⟨⟨isBlank_yearChars, hyphen, fun c ↦ isBlank_of_mem_padded⟩, hyphen,
    fun c ↦ isBlank_of_mem_padded⟩

theorem TimeOfDay.isBlank_chars (t : TimeOfDay) : ∀ c ∈ t.chars, isBlank c = false := by
  have colon : isBlank ':' = false := by decide
  simp only [TimeOfDay.chars, List.forall_mem_append, List.forall_mem_cons]
  exact ⟨⟨fun c ↦ isBlank_of_mem_padded, colon, fun c ↦ isBlank_of_mem_padded⟩, colon,
    fun c ↦ isBlank_of_mem_padded⟩

theorem Fraction.isBlank {nanos : Nat} {ds : List Char} (h : Fraction nanos ds) :
    ∀ c ∈ ds, isBlank c = false := by
  cases h with
  | none => exact List.forall_mem_nil _
  | digits _ all _ =>
    exact List.forall_mem_cons.mpr ⟨by decide, fun c hc ↦ isBlank_of_isDigit (all c hc)⟩

theorem Zone.isBlank {seconds : Int} {zone : List Char} (h : Zone seconds zone) :
    ∀ c ∈ zone, isBlank c = false := by
  have clock {c : Char} (sign : Text.isBlank c = false) (hours minutes : Nat) :
      ∀ d ∈ c :: padded 2 hours ++ ':' :: padded 2 minutes, Text.isBlank d = false := by
    simp only [List.cons_append, List.forall_mem_append, List.forall_mem_cons]
    exact ⟨sign, fun c ↦ isBlank_of_mem_padded, by decide, fun c ↦ isBlank_of_mem_padded⟩
  rcases h with ⟨c, rfl | rfl⟩ | ⟨hours, minutes⟩ | ⟨c, rfl | rfl, hours, minutes⟩
  · exact List.forall_mem_singleton.mpr (by decide)
  · exact List.forall_mem_singleton.mpr (by decide)
  · exact clock (by decide) _ _
  · exact clock (by decide) _ _
  · exact clock (by decide) _ _

theorem Zone.ne_nil {seconds : Int} {zone : List Char} (h : Zone seconds zone) : zone ≠ [] := by
  cases h <;> exact List.cons_ne_nil _ _

theorem Date.trimmed_chars (d : Date) : Trimmed d.chars := .of_forall d.isBlank_chars

/-- There is no white space around the text of a moment, be there some between date and time. -/
theorem Moment.Zoned.trimmed {m : Moment} (h : m.Zoned cs) : Trimmed cs := by
  obtain ⟨c, -, -, zone⟩ := h
  have begins : m.date.chars ≠ [] := List.append_ne_nil_of_right_ne_nil _ (List.cons_ne_nil _ _)
  rw [List.append_assoc m.date.chars]
  exact .between begins zone.ne_nil m.date.isBlank_chars zone.isBlank _

theorem Moment.OffsetFree.trimmed {m : Moment} (h : m.OffsetFree cs) : Trimmed cs := by
  obtain ⟨fraction⟩ := h
  simp only [List.append_assoc]
  refine .of_forall ?_
  simp only [List.cons_append, List.forall_mem_append, List.forall_mem_cons]
  exact ⟨m.date.isBlank_chars, by decide, m.time.isBlank_chars, fraction.isBlank⟩

namespace Instant

/-- The text of an instant is one of its moment in UTC. -/
theorem zoned_text (t : Instant) : t.moment.Zoned t.text.toList := by
  rw [text, String.toList_ofList]
  exact .mk 'T' (.inl rfl) t.fraction_fractionChars (.utc 'Z' (.inl rfl))

theorem trimmed_text (t : Instant) : Trimmed t.text.toList := t.zoned_text.trimmed

/-- The texts of a moment with its offset spell its instant, in a year of four digits. -/
theorem ofSpelling?_zoned {m : Moment} (exists' : m.Exists)
    (common : 0 ≤ m.date.year ∧ m.date.year ≤ 9999) (text : m.Zoned cs) {t : Instant}
    (value : m.toInstant? = some t) : ofSpelling? cs = some t := by
  have read : readBy? Scan.strict cs = some t := by
    rw [readBy?, all?_of_takes (Scan.strict_takes exists' common text)]
    exact value
  rw [ofSpelling?, read, Option.some_or]

/-- So do those of a moment in UTC without an offset. -/
theorem ofSpelling?_offsetFree {m : Moment} (exists' : m.Exists)
    (common : 0 ≤ m.date.year ∧ m.date.year ≤ 9999) (utc : m.offset = 0) (text : m.OffsetFree cs)
    {t : Instant} (value : m.toInstant? = some t) : ofSpelling? cs = some t := by
  have read : readBy? Scan.offsetFree cs = some t := by
    rw [readBy?, all?_of_takes (Scan.offsetFree_takes exists' utc text)]
    exact value
  rw [ofSpelling?, read, readBy?, all?_of_refuses (Scan.strict_refuses exists' common text)]
  rfl

/-- The text of an instant of a year of four digits spells it. -/
theorem ofSpelling?_text {t : Instant} (common : 0 ≤ t.date.year ∧ t.date.year ≤ 9999) :
    ofSpelling? t.text.toList = some t :=
  ofSpelling?_zoned t.exists_moment common t.zoned_text t.toInstant?_moment

/-- The date of a day spells its beginning. -/
theorem ofSpelling?_chars {d : Date} (valid : d.isValid = true) :
    ofSpelling? d.chars = ofDayNumber? d.dayNumber := by
  have bare : readBy? Scan.bareDate d.chars = ofDayNumber? d.dayNumber := by
    rw [readBy?, all?_of_takes (Scan.bareDate_takes valid)]
    simp [Moment.toInstant?, TimeOfDay.midnight, valid, ofDayNumber?]
  rw [ofSpelling?, readBy?, all?_of_refuses (Scan.strict_refuses_date valid), readBy?,
    all?_of_refuses (Scan.offsetFree_refuses_date valid), bare]
  rfl

theorem ofSpelling?_date (t : Instant) : ofSpelling? t.date.chars = ofDayNumber? t.dayNumber := by
  have number : t.date.dayNumber = t.dayNumber := Date.dayNumber_ofDayNumber _
  rw [ofSpelling?_chars t.isValid_date, number]

end Instant

end Outreach.Calendar
