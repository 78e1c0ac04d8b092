import Mathlib.Logic.Relation
import Outreach.Proofs.Login.Tokens
import Outreach.Proofs.Settings.Places

/-!
# Settings over the usual ones

A document is read over the usual settings, place by place. So what is read is known from what the
document gives for each place, whatever else is in it and wherever it stands, and removing one key makes
one place as usual. Settings with which logins would not last between an hour and a year can be read, but
they are not accepted, and at a desk logins last as usual then.
-/

namespace Outreach.Settings

open Json

variable {doc : Json} {s : Settings}

/-! ## Removing a key -/

namespace Place

/-- The document without the key of a place. -/
def remove (p : Place) (doc : Json) : Json :=
  match p.section? with
  | none => doc.without p.name
  | some sec => doc.within sec.name (·.without p.name)

/-- A place has a key in the document if it has anything: the document is an object, and so is what it
gives for the section of the place. -/
def IsKeyed (p : Place) (doc : Json) : Prop :=
  doc.IsObject ∧ ∀ sec, p.section? = some sec → ∀ j, doc.given? names sec.name = some j → j.IsObject

variable {p : Place}

/-- The section of the place lacks the key, and all other sections stay. -/
theorem given?_remove_section (object : doc.IsObject) (sec : Section) :
    (p.remove doc).given? names sec.name =
      if p.section? = some sec then (doc.given? names sec.name).map (·.without p.name)
      else doc.given? names sec.name := by
  unfold remove
  cases inside : p.section? with
  | none =>
    obtain rfl := eq_nodeId inside
    rw [if_neg nofun]
    exact (given?_without object).trans (if_neg sec.name_ne)
  | some sec' =>
    rw [given?_within object]
    simp only [Section.name_inj, Option.some.injEq, eq_comm]

theorem given?_remove (keyed : p.IsKeyed doc) (q : Place) :
    q.given? (p.remove doc) = if q = p then none else q.given? doc := by
  obtain ⟨object, parts⟩ := keyed
  cases inside : q.section? with
  | none =>
    obtain rfl := eq_nodeId inside
    unfold remove
    cases beside : p.section? with
    | none =>
      obtain rfl := eq_nodeId beside
      exact (given?_without object).trans (if_pos rfl)
    | some sec =>
      have other : Place.nodeId ≠ p := by
        rintro rfl
        cases beside
      rw [if_neg other]
      exact (given?_within object).trans (if_neg sec.name_ne.symm)
  | some sec =>
    rw [given?_of_section inside, given?_of_section inside, given?_remove_section object]
    split
    · next beside =>
      cases found : doc.given? names sec.name with
      | none => simp
      | some j =>
        have same : q.name = p.name ↔ q = p :=
          ⟨eq_of_name_eq inside beside, fun same ↦ same ▸ rfl⟩
        have shorter : (j.without p.name).given? sec.names q.name =
            if q.name = p.name then none else j.given? sec.names q.name :=
          given?_without (parts sec beside j found)
        simp only [Option.map_some, Option.bind_some, shorter, same]
    · next apart =>
      have other : q ≠ p := fun same ↦ apart (same ▸ inside)
      rw [if_neg other]

theorem wellFormed_remove (object : doc.IsObject) (h : WellFormed doc) :
    WellFormed (p.remove doc) := by
  constructor
  · unfold remove
    cases p.section? with
    | none => exact h.whole.without
    | some sec => exact isRecord_within.mpr h.whole
  · intro sec j given
    rw [given?_remove_section object] at given
    split at given
    · obtain ⟨i, found, rfl⟩ := Option.map_eq_some_iff.mp given
      exact (h.parts sec i found).without
    · exact h.parts sec j given

/-- Without its key a place has its usual value, and all other places have the values that they had. -/
theorem ofJson?_remove (keyed : p.IsKeyed doc) (read : ofJson? doc = some s) :
    ∃ s', ofJson? (p.remove doc) = some s' ∧ p.get s' = p.get .usual ∧
      ∀ q, q ≠ p → q.get s' = q.get s := by
  obtain ⟨form, h⟩ := ofJson?_eq_some_iff.mp read
  refine ⟨ofValues fun q ↦ if q = p then q.get .usual else q.get s, ?_, ?_, fun q other ↦ ?_⟩
  · refine ofJson?_eq_some_iff.mpr ⟨wellFormed_remove keyed.1 form, fun q ↦ ?_⟩
    rw [given?_remove keyed, Settled, get_ofValues]
    split
    · rfl
    · exact h q
  · rw [get_ofValues, if_pos rfl]
  · rw [get_ofValues, if_neg other]

end Place

/-! ## Documents put differently -/

/-- How a document can be put differently, as a whole or in one of its sections. -/
inductive Restated : Json → Json → Prop
  | whole {doc doc' : Json} (h : Json.Restated names doc doc') : Restated doc doc'
  | part (sec : Section) {j j' : Json} (rest : List (String × Json))
      (h : Json.Restated sec.names j j') :
    Restated (.object ((sec.name, j) :: rest)) (.object ((sec.name, j') :: rest))

namespace Restated

variable {doc' : Json}

theorem given?_part (sec : Section) (j : Json) (rest : List (String × Json)) (n : String) :
    (Json.object ((sec.name, j) :: rest)).given? names n =
      if sec.name = n then some j else rest.lookup n := by
  split
  · next here => exact lookup_cons_of_eq here
  · next apart => exact lookup_cons_of_ne apart

theorem isRecord_iff (h : Restated doc doc') : doc.IsRecord names ↔ doc'.IsRecord names := by
  cases h with
  | whole h => exact h.isRecord_iff
  | part sec rest h => exact forall₂_congr fun name _ ↦ once_cons sec.name _ _

/-- What is given for a section is the same, or it is put differently. -/
theorem section_cases (h : Restated doc doc') (shape : doc.IsRecord names) (sec : Section) :
    doc.given? names sec.name = doc'.given? names sec.name ∨
      ∃ j j', doc.given? names sec.name = some j ∧ doc'.given? names sec.name = some j' ∧
        Json.Restated sec.names j j' := by
  cases h with
  | whole h => exact .inl (h.given?_eq shape (mem_names sec))
  | @part sec' j j' rest h =>
    rw [given?_part, given?_part]
    by_cases here : sec' = sec
    · subst here
      rw [if_pos rfl, if_pos rfl]
      exact .inr ⟨j, j', rfl, rfl, h⟩
    · have apart := Section.name_inj.not.mpr here
      rw [if_neg apart, if_neg apart]
      exact .inl rfl

theorem given?_nodeId (h : Restated doc doc') (shape : doc.IsRecord names) :
    Place.nodeId.given? doc = Place.nodeId.given? doc' := by
  cases h with
  | whole h => exact h.given?_eq shape (by decide)
  | part sec rest h =>
    show Json.given? names "node_id" _ = Json.given? names "node_id" _
    rw [given?_part, given?_part, if_neg sec.name_ne, if_neg sec.name_ne]

/-- What is given for a section has the form of the section either way. -/
theorem parts_iff (h : Restated doc doc') (shape : doc.IsRecord names) (sec : Section) :
    (∀ j, doc.given? names sec.name = some j → j.IsRecord sec.names) ↔
      ∀ j, doc'.given? names sec.name = some j → j.IsRecord sec.names := by
  rcases h.section_cases shape sec with same | ⟨j, j', here, there, restated⟩
  · rw [same]
  · simp [here, there, restated.isRecord_iff]

theorem wellFormed_iff (h : Restated doc doc') : WellFormed doc ↔ WellFormed doc' := by
  constructor
  · rintro ⟨shape, parts⟩
    exact ⟨h.isRecord_iff.mp shape, fun sec ↦ (h.parts_iff shape sec).mp (parts sec)⟩
  · rintro ⟨shape, parts⟩
    have shape := h.isRecord_iff.mpr shape
    exact ⟨shape, fun sec ↦ (h.parts_iff shape sec).mpr (parts sec)⟩

theorem given?_eq (h : Restated doc doc') (form : WellFormed doc) (p : Place) :
    p.given? doc = p.given? doc' := by
  cases inside : p.section? with
  | none =>
    rw [Place.eq_nodeId inside]
    exact h.given?_nodeId form.whole
  | some sec =>
    rw [Place.given?_of_section inside, Place.given?_of_section inside]
    rcases h.section_cases form.whole sec with same | ⟨j, j', here, there, restated⟩
    · rw [same]
    · rw [here, there, Option.bind_some, Option.bind_some]
      exact restated.given?_eq (form.parts sec j here) (Place.name_mem inside)

/-- A document that is put differently is read as the same settings. -/
theorem ofJson?_eq (h : Restated doc doc') : ofJson? doc = ofJson? doc' :=
  ofJson?_congr h.wellFormed_iff h.given?_eq

end Restated

/-! ## What is read -/

/-- A place is settled exactly if it has the value that is read from what is given, or its usual value
where nothing is given. -/
theorem Place.settled_iff {p : Place} {given : Option Json} : p.Settled given s ↔
    match given with
    | some j => p.read? j = some (p.get s)
    | none => p.get s = p.get .usual := by
  cases given with
  | none => exact Option.some_inj.trans eq_comm
  | some j => exact Iff.rfl

/-- Settings are accepted exactly if logins last between an hour and a year. -/
theorem check_eq_ok_iff : s.check = .ok () ↔ 1 ≤ s.auth.tokenHours ∧ s.auth.tokenHours ≤ 8760 := by
  unfold check Auth.tokenSeconds? maxTokenHours
  split <;> simp_all

/-- Logins last between an hour and a year, whatever the settings are. -/
theorem lifetime_bounded (a : Auth) (adminId : Id) : ∃ hours, 1 ≤ hours ∧ hours ≤ 8760 ∧
    (1 ≤ a.tokenHours ∧ a.tokenHours ≤ 8760 → hours = a.tokenHours) ∧
    (Desk.ofSettings a adminId).lifetime = hours * 3600 := by
  refine ⟨_, ?_, ?_, ?_, Desk.lifetime_ofSettings a adminId⟩
  · split <;> omega
  · split <;> omega
  · exact fun sensible ↦ if_pos sensible

/-- A document is read over the usual settings: each place has the value that the document gives for
it, in its section or beside the sections, and its usual value if the document gives none. So without
its key a place is as usual and all others stay, and neither the order of the keys nor other keys
matter. What is read is accepted exactly if logins last between an hour and a year; the desk sees to
that in any case. -/
theorem document_over_usual :
    (∀ doc s, ofJson? doc = some s ↔ WellFormed doc ∧ ∀ p : Place,
      match p.given? doc with
      | some j => p.read? j = some (p.get s)
      | none => p.get s = p.get .usual) ∧
    ofJson? (.object []) = some .usual ∧
    (∀ doc s, ofJson? doc = some s → ∀ p : Place, p.IsKeyed doc → ∃ s',
      ofJson? (p.remove doc) = some s' ∧ p.get s' = p.get .usual ∧ ∀ q, q ≠ p → q.get s' = q.get s) ∧
    (∀ doc doc', Relation.EqvGen Restated doc doc' → ofJson? doc = ofJson? doc') ∧
    (∀ s : Settings, s.check = .ok () ↔ 1 ≤ s.auth.tokenHours ∧ s.auth.tokenHours ≤ 8760) ∧
    (∀ (a : Auth) (adminId : Id), ∃ hours, 1 ≤ hours ∧ hours ≤ 8760 ∧
      (1 ≤ a.tokenHours ∧ a.tokenHours ≤ 8760 → hours = a.tokenHours) ∧
      (Desk.ofSettings a adminId).lifetime = hours * 3600) := by
  refine ⟨fun doc s ↦ ?_, rfl, fun doc s read p keyed ↦ ?_, fun doc doc' restated ↦ ?_,
    fun s ↦ check_eq_ok_iff, lifetime_bounded⟩
  · rw [ofJson?_eq_some_iff]
    exact and_congr_right fun _ ↦ forall_congr' fun p ↦ Place.settled_iff
  · exact Place.ofJson?_remove keyed read
  · induction restated with
    | rel _ _ h => exact h.ofJson?_eq
    | refl _ => rfl
    | symm _ _ _ ih => exact ih.symm
    | trans _ _ _ _ _ first second => exact first.trans second

/-- A document with a key of no meaning and with logins that last no time. -/
def sketch : Json := .object
  [("colour", .text "blue"),
    ("auth", .object [("token_ttl_hours", .number (.natural 0)), ("admin_name", .text "Ann")]),
    ("campaigns", .object [("open_rate", .number (.natural 1))])]

def neatSketch : Json := .object
  [("auth", .object [("admin_name", .text "Ann"), ("token_ttl_hours", .number (.natural 0))]),
    ("campaigns", .object [("open_rate", .number (.natural 1))])]

def sketched : Settings :=
  { usual with
    campaigns := { Campaigns.usual with rates := ⟨0.95, 1, 0.05⟩ }
    auth := { Auth.usual with adminName := "Ann", tokenHours := 0 } }

/-- What the document gives stands, and all else is as usual. Without their key logins last a week. -/
theorem document_over_usual_sketch :
    ofJson? sketch = some sketched ∧ ofJson? neatSketch = some sketched ∧
    (∃ s', ofJson? (Place.tokenHours.remove sketch) = some s' ∧ s'.auth.tokenHours = 168 ∧
      s'.auth.adminName = "Ann" ∧ s'.campaigns.rates.opening = 1 ∧ s'.check = .ok ()) ∧
    sketched.check ≠ .ok () := by
  obtain ⟨-, -, removal, restated, accepted, -⟩ := document_over_usual
  have read : ofJson? sketch = some sketched := by decide +kernel
  have keyed : Place.tokenHours.IsKeyed sketch := by
    refine ⟨trivial, fun sec inside j given ↦ ?_⟩
    cases inside
    cases given
    trivial
  have same : Relation.EqvGen Restated sketch neatSketch :=
    .trans _ _ _ (.symm _ _ (.rel _ _ (.whole (.unknown _ _ (by decide)))))
      (.rel _ _ (.part .auth _ (.order (.swap _ _ _))))
  obtain ⟨s', shorter, usual, others⟩ := removal sketch sketched read .tokenHours keyed
  have hours : s'.auth.tokenHours = 168 := usual
  refine ⟨read, (restated _ _ same).symm.trans read, ⟨s', shorter, hours, others .adminName nofun,
    others .opening nofun, (accepted s').mpr (by omega)⟩, fun ok ↦ ?_⟩
  have least := ((accepted sketched).mp ok).1
  exact absurd least (by decide)

end Outreach.Settings
