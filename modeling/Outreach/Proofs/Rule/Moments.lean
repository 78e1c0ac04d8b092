import Outreach.Proofs.Calendar.Moments
import Outreach.Proofs.Rule.Days
import Outreach.Proofs.Rule.Spellings

/-!
# Values that tell a moment

A moment may be told at any offset from UTC, without an offset, at midnight by the date alone, or by
the number of its milliseconds. A rule about a date reads all of these as one instant, so it does not
matter which of them it is given.
-/

namespace Outreach.Rule

open Calendar Decimal Text

variable {m : Moment} {t : Instant} {v w : Value}

/-- The values that tell a moment of UTC. White space may stand around all texts. -/
inductive Value.Tells (m : Moment) : Value → Prop where
  /-- Date and time of day at an offset, with this offset, in a year of four digits there. -/
  | zoned (offset : Int)
      (year : 0 ≤ (m.elsewhere offset).date.year ∧ (m.elsewhere offset).date.year ≤ 9999)
      {cs : List Char} (text : (m.elsewhere offset).Zoned cs) {s : String}
      (framed : Framed cs s.toList) : Tells m (.text s)
  /-- Date and time of day in UTC, without an offset. -/
  | offsetFree {cs : List Char} (text : m.OffsetFree cs) {s : String}
      (framed : Framed cs s.toList) : Tells m (.text s)
  | date (midnight : m.time = .midnight) {s : String} (framed : Framed m.date.chars s.toList) :
      Tells m (.text s)
  /-- A number whose whole part are the milliseconds. -/
  | millis {x : Float} {b : Binary} (read : Binary.ofFloat? x = some b)
      (value : b.truncate = m.millis) : Tells m (.number x)

namespace Value.Tells

/-- A value that tells a moment is read as its instant. -/
theorem instant?_eq (tells : v.Tells m) (common : m.Common) (utc : m.offset = 0)
    (value : m.toInstant? = some t) : v.instant? = some t := by
  cases tells with
  | zoned offset year text framed =>
    have there := common.elsewhere text.natAbs_offset_lt year
    rw [instant?, framed.trimChars_eq text.trimmed]
    exact Instant.ofSpelling?_zoned there.toExists year text
      ((common.toInstant?_elsewhere there).trans value)
  | offsetFree text framed =>
    rw [instant?, framed.trimChars_eq text.trimmed]
    exact Instant.ofSpelling?_offsetFree common.toExists common.year utc text value
  | date midnight framed =>
    rw [instant?, framed.trimChars_eq m.date.trimmed_chars, Instant.ofSpelling?_chars common.date,
      common.ofDayNumber?_dayNumber utc midnight, value]
  | millis read whole =>
    rw [instant?, read, Option.bind_some, whole, common.ofMillis?_millis, value]

/-- In UTC the offset may also be the letter for none. -/
theorem utc (common : m.Common) (utc : m.offset = 0) {s : String}
    (framed : Framed (m.chars ++ ['Z']) s.toList) : (Value.text s).Tells m := by
  have here : m.elsewhere 0 = m := utc ▸ common.elsewhere_offset
  refine .zoned 0 (here.symm ▸ common.year) (here.symm ▸ common.zoned_chars ?_) framed
  rw [utc]
  exact .utc 'Z' (.inl rfl)

theorem abroad (common : m.Common) {offset : Int} (day : offset.natAbs < 86400)
    (minutes : offset % 60 = 0)
    (year : 0 ≤ (m.elsewhere offset).date.year ∧ (m.elsewhere offset).date.year ≤ 9999) {s : String}
    (framed : Framed ((m.elsewhere offset).chars ++ zoneChars offset) s.toList) :
    (Value.text s).Tells m :=
  .zoned offset year ((common.elsewhere day year).zoned_chars (zone_zoneChars day minutes)) framed

theorem number (common : m.Common) : (Value.number (whole m.millis)).Tells m := by
  obtain ⟨t, -, secs, nanos⟩ := common.exists_instant
  have same : t.millis = m.millis := by rw [Instant.millis, secs, nanos, Moment.millis]
  obtain ⟨b, read, value⟩ := Option.map_eq_some_iff.mp (truncate_whole (same ▸ t.natAbs_millis_lt))
  exact .millis read value

end Value.Tells

/-- All values that tell a moment of a year of four digits, to the millisecond, are read as the one
instant that has its date and time of day in UTC. Under every operator that does not search for a text
they make the same condition on both dates of a customer. Among these values are, with white space
around them or none: the text with the letter for UTC, the text at any offset of whole minutes below a
day where the year has four digits there, the text without an offset, at midnight the date alone, and
the number of milliseconds. -/
theorem compile_of_tells (m : Moment) (common : m.Common) (utc : m.offset = 0) :
    (∃ t : Instant, t.moment = m ∧ ∀ v : Value, v.Tells m → v.instant? = some t) ∧
    (∀ v w : Value, v.Tells m → w.Tells m → ∀ field op l l',
      field = "lastPurchaseDate" ∨ field = "registrationDate" → op ≠ .contains → op ≠ .notContains →
      compile ⟨field, op, v, l⟩ = compile ⟨field, op, w, l'⟩) ∧
    (∀ s : String, Framed (m.chars ++ ['Z']) s.toList → (Value.text s).Tells m) ∧
    (∀ (s : String) (offset : Int), offset.natAbs < 86400 → offset % 60 = 0 →
      0 ≤ (m.elsewhere offset).date.year ∧ (m.elsewhere offset).date.year ≤ 9999 →
      Framed ((m.elsewhere offset).chars ++ zoneChars offset) s.toList → (Value.text s).Tells m) ∧
    (∀ s : String, Framed m.chars s.toList → (Value.text s).Tells m) ∧
    (∀ s : String, m.time = .midnight → Framed m.date.chars s.toList → (Value.text s).Tells m) ∧
    (Value.number (whole m.millis)).Tells m := by
  obtain ⟨t, value, -, -⟩ := common.exists_instant
  have read (v : Value) (tells : v.Tells m) : v.instant? = some t := tells.instant?_eq common utc value
  refine ⟨⟨t, common.moment_eq utc value, read⟩, ?_, fun s ↦ .utc common utc, ?_,
    fun s ↦ .offsetFree common.offsetFree_chars, fun s midnight ↦ .date midnight, .number common⟩
  · intro v w tells tells' field op l l' name contains notContains
    have dated : (Field.ofName field).kind? = some .instant := by rcases name with rfl | rfl <;> rfl
    have same : v.instant? = w.instant? := (read v tells).trans (read w tells').symm
    exact compile_congr_instant dated same contains notContains l l'
  · exact fun s offset day minutes year framed ↦ .abroad common day minutes year framed

/-- The beginning of March 2024, which is still the leap day in the west. -/
def marchBegins : Moment := ⟨⟨2024, 3, 1⟩, .midnight, 0⟩

/-- The leap day's last hours in the west and the milliseconds are the same to a rule as the first of
March. -/
theorem compile_of_tells_marchBegins :
    marchBegins.Common ∧ marchBegins.offset = 0 ∧
      ∀ v ∈ [Value.text "2024-03-01", .text "2024-03-01T00:00:00.000",
          .text " 2024-03-01T00:00:00.000Z\n", .text "\t2024-02-29T19:30:00.000-04:30",
          .number (whole 1709251200000)],
        v.instant? = Instant.ofParts? 1709251200 0 ∧
          compile ⟨"registrationDate", .atMost, v, .and⟩ =
            compile ⟨"registrationDate", .atMost, .text "2024-03-01", .or⟩ := by
  have common : marchBegins.Common :=
    ⟨⟨by decide, ⟨by decide, by decide, by decide⟩, by decide⟩, by decide, by decide, by decide, by decide⟩
  obtain ⟨⟨t, begins, read⟩, same, utc, abroad, offsetFree, date, number⟩ :=
    compile_of_tells marchBegins common rfl
  have bare : (Value.text "2024-03-01").Tells marchBegins := date _ rfl (.refl _)
  have instant : some t = Instant.ofParts? 1709251200 0 := (read _ bare).symm.trans (by decide)
  have zulu : " 2024-03-01T00:00:00.000Z\n".toList =
      [' '] ++ (marchBegins.chars ++ ['Z']) ++ ['\n'] := by decide
  have west : "\t2024-02-29T19:30:00.000-04:30".toList =
      ['\t'] ++ ((marchBegins.elsewhere (-16200)).chars ++ zoneChars (-16200)) ++ [] := by decide
  have all : ∀ v ∈ [Value.text "2024-03-01", .text "2024-03-01T00:00:00.000",
      .text " 2024-03-01T00:00:00.000Z\n", .text "\t2024-02-29T19:30:00.000-04:30",
      .number (whole 1709251200000)], v.Tells marchBegins := by
    simp only [List.forall_mem_cons]
    refine ⟨bare, offsetFree _ (.refl _), utc _ ?_,
      abroad _ (-16200) (by decide) (by decide) (by decide) ?_, number, List.forall_mem_nil _⟩
    · exact zulu ▸ .mk _ _ (List.forall_mem_singleton.mpr (by decide))
        (List.forall_mem_singleton.mpr (by decide))
    · exact west ▸ .mk _ _ (List.forall_mem_singleton.mpr (by decide)) (List.forall_mem_nil _)
  refine ⟨common, rfl, fun v hv ↦ ⟨(read v (all v hv)).trans instant, ?_⟩⟩
  exact same v _ (all v hv) bare _ _ _ _ (.inr rfl) (by decide) (by decide)

end Outreach.Rule
