import Outreach.Audience.Basic
import Outreach.Proofs.Exchange
import Outreach.Proofs.Json.Finite
import Outreach.Proofs.Json.Records

/-!
# Rules written again

A rule that has been read is written with its own texts: those of the field and of the operator as they
came, whether anything goes by them or not, and a value of the same kind. So a list of rules that has
been stored and read again is the same list, and reaches the same customers.
-/

namespace Outreach.Rule

open Json Json.Fields

variable {j : Json} {r : Rule} {rules : List Rule}

/-! ## Single parts -/

/-- The text of an operator is the one from which it was read. -/
@[simp] theorem Operator.text_ofText (s : String) : (ofText s).text = s := by
  unfold ofText
  split <;> rfl

/-- A value to compare with, and how it is written: a text as it is, and a number as a double. -/
inductive Value.Written : Json → Json → Prop
  | text (s : String) : Written (.text s) (.text s)
  | number {n : Number} {x : Float} (same : (Json.number n).float? = some x) :
    Written (.number n) (.number (.real x))

/-- What is given for the tag, if anything, and how it is written. -/
inductive Logic.Written : Option Json → Json → Prop
  | missing : Written none (.text "AND")
  | or : Written (some (.text "OR")) (.text "OR")
  | other {s : String} (h : s ≠ "OR") : Written (some (.text s)) (.text "AND")

def names : List String := ["field", "operator", "value", "logic"]

/-- How a rule is written that is read from a value: as an object of these four entries. -/
inductive Written (j : Json) : Json → Prop
  | mk {field operator : String} {value value' logic : Json}
      (hfield : j.given? names "field" = some (.text field))
      (hoperator : j.given? names "operator" = some (.text operator))
      (hvalue : j.given? names "value" = some value) (same : Value.Written value value')
      (hlogic : Logic.Written (j.given? names "logic") logic) :
    Written j (.object [("field", .text field), ("operator", .text operator), ("value", value'),
      ("logic", logic)])

/-! ## Reading a rule -/

/-- A rule is read from a value exactly if its parts are read from what is given for them. -/
theorem ofJson?_eq_some_iff : ofJson? j = some r ↔ j.IsRecord names ∧
    (j.given? names "field").elim none text? = some r.field ∧
    (j.given? names "operator").elim none (fun j ↦ j.text?.map .ofText) = some r.operator ∧
    (j.given? names "value").elim none Value.ofJson? = some r.value ∧
    (j.given? names "logic").elim (some Logic.and) (fun j ↦ j.text?.map .ofText) = some r.logic := by
  unfold ofJson?
  simp only [required_eq_field, withDefault_eq_field]
  refine (Reads.record?_eq_some_iff (.field _ _ _ fun _ ↦ .field _ _ _ fun _ ↦ .field _ _ _ fun _ ↦
    .field _ _ _ fun _ ↦ .done _) (show names.Nodup by decide)).trans ?_
  constructor
  · rintro ⟨shape, field, hf, operator, ho, value, hv, logic, hl, rfl⟩
    exact ⟨shape, hf, ho, hv, hl⟩
  · rintro ⟨shape, hf, ho, hv, hl⟩
    exact ⟨shape, _, hf, _, ho, _, hv, _, hl, rfl⟩

/-- A value is read from a text or from a number. -/
theorem Value.written {v : Value} (finite : j.IsFinite) (read : Value.ofJson? j = some v) :
    v.IsFinite ∧ Value.Written j v.toJson := by
  cases j with
  | text s =>
    cases read
    exact ⟨trivial, .text s⟩
  | number n =>
    obtain ⟨x, same, rfl⟩ := Option.map_eq_some_iff.mp read
    have bounded : x.isFinite = true := finite.float? same
    refine ⟨bounded, ?_⟩
    rw [Value.toJson, ofFloat, if_pos bounded]
    exact .number same
  | _ => cases read

/-- The tag is read from its text, and it is "and" where none is given. -/
theorem Logic.written {given : Option Json} {l : Logic}
    (read : given.elim (some Logic.and) (fun j ↦ j.text?.map .ofText) = some l) :
    Logic.Written given (.text l.text) := by
  cases given with
  | none =>
    cases read
    exact .missing
  | some j =>
    obtain ⟨s, text, rfl⟩ := Option.map_eq_some_iff.mp read
    rw [eq_text_of_text? text]
    unfold ofText
    split
    · next or =>
      subst or
      exact .or
    · next other => exact .other other

/-- A rule that is read from a value is written and read again as it was. -/
theorem written (finite : j.IsFinite) (read : ofJson? j = some r) :
    r.IsRead ∧ Written j r.toJson := by
  obtain ⟨-, field, operator, value, logic⟩ := ofJson?_eq_some_iff.mp read
  obtain ⟨i, hf, field⟩ := elim_none_eq_some_iff.mp field
  obtain ⟨o, ho, operator⟩ := elim_none_eq_some_iff.mp operator
  obtain ⟨v, hv, value⟩ := elim_none_eq_some_iff.mp value
  obtain ⟨s, text, operator⟩ := Option.map_eq_some_iff.mp operator
  obtain ⟨bounded, same⟩ := Value.written (finite.given? hv) value
  refine ⟨⟨⟨s, operator⟩, bounded⟩, ?_⟩
  rw [eq_text_of_text? field] at hf
  rw [eq_text_of_text? text] at ho
  rw [toJson, ← operator, Operator.text_ofText]
  exact .mk hf ho hv same (Logic.written logic)

/-- The rules of a list that is read have been read. -/
theorem isRead_of_list? (finite : j.IsFinite) (read : j.list? ofJson? = some rules) :
    ∀ r ∈ rules, r.IsRead := by
  intro r hr
  cases finite with
  | @array items h =>
    obtain ⟨i, inside, each⟩ := exists_of_list? read r hr
    exact (written (h i inside) each).1
  | _ => cases read

/-- A rule that is read from a value is written with its own texts and its own value, and what is
written is read as this rule; all numbers in values that come from texts are finite. So a list of rules
that is stored and read again has the same conditions and the same audience. -/
theorem rules_rewritten :
    (∀ (s : String) (j : Json), leading? s = some j ∨ ofLine? s = some j → j.IsFinite) ∧
    (∀ (j : Json) (r : Rule), j.IsFinite → ofJson? j = some r →
      ofJson? r.toJson = some r ∧ Written j r.toJson) ∧
    (∀ (j : Json) (rules : List Rule), j.IsFinite → j.list? ofJson? = some rules →
      (ofList toJson rules).list? ofJson? = some rules ∧
      ((ofList toJson rules).list? ofJson?).map (List.map compile) = some (rules.map compile) ∧
      ∀ customers, ((ofList toJson rules).list? ofJson?).map (Audience.evaluate customers) =
        some (Audience.evaluate customers rules)) := by
  refine ⟨?_, ?_, ?_⟩
  · rintro s j (front | whole)
    · exact finite_leading? front
    · exact finite_ofLine? whole
  · intro j r finite read
    obtain ⟨isRead, same⟩ := written finite read
    exact ⟨ofJson?_toJson isRead, same⟩
  · intro j rules finite read
    have again : (ofList toJson rules).list? ofJson? = some rules :=
      list?_ofList fun r hr ↦ ofJson?_toJson (isRead_of_list? finite read r hr)
    rw [again]
    exact ⟨rfl, rfl, fun _ ↦ rfl⟩

/-- The text of a rule as it is posted: its operator is none, and it has a remark with it. -/
def posted : String :=
  "\x7b\"remark\": 5, \"field\": \"tags\", \"operator\": \"=>\", \"value\": \"12\", " ++
    "\"logic\": \"or\"\x7d"

/-- The remark is dropped and the tag in small letters means "and"; the operator stays none, and the
text stays a text. So the rule has no condition, before it is stored with another one and after. -/
theorem rules_rewritten_posted :
    let silent : Rule := ⟨"tags", .unrecognized "=>", .text "12", .and⟩
    let frequent : Rule := ⟨"visits", .atLeast, .number 100, .or⟩
    ofJson? silent.toJson = some silent ∧
    (∃ j, leading? posted = some j ∧ Written j silent.toJson) ∧
    (ofList toJson [silent, frequent]).list? ofJson? = some [silent, frequent] ∧
    ((ofList toJson [silent, frequent]).list? ofJson?).map (List.map compile) =
      some [none, some ⟨.visits, .compare .atLeast (.number 100)⟩] := by
  intro silent frequent
  let both := "[" ++ posted ++
    ", \x7b\"field\": \"visits\", \"operator\": \">=\", \"value\": 100, \"logic\": \"OR\"\x7d]"
  obtain ⟨finite, single, list⟩ := rules_rewritten
  have read : (leading? posted).bind ofJson? = some silent := by decide +kernel
  obtain ⟨j, leading, rule⟩ := Option.bind_eq_some_iff.mp read
  obtain ⟨back, same⟩ := single j silent (finite posted j (.inl leading)) rule
  have reads : (leading? both).bind (list? ofJson?) = some [silent, frequent] := by decide +kernel
  obtain ⟨js, leads, rules⟩ := Option.bind_eq_some_iff.mp reads
  obtain ⟨again, conditions, -⟩ := list js _ (finite both js (.inl leads)) rules
  refine ⟨back, ⟨j, leading, same⟩, again, conditions.trans ?_⟩
  decide +kernel

end Outreach.Rule
