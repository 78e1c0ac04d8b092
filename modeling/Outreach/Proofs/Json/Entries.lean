import Mathlib.Data.List.Perm.Basic
import Mathlib.Data.Option.Basic
import Mathlib.Data.Prod.Basic
import Outreach.Json.Basic

/-!
# Entries by name

What stands under a name in a list of entries, where no name is to be repeated. Neither the order of the
entries nor the entries of other names matter to it.
-/

namespace Outreach.Json

variable {name other : String} {es es' : List (String × Json)} {e : String × Json}

def Once (es : List (String × Json)) (name : String) : Prop := (es.filter (·.1 == name)).length ≤ 1

theorem lookup_cons_of_ne (h : e.1 ≠ name) : (e :: es).lookup name = es.lookup name := by
  obtain ⟨n, j⟩ := e
  have apart : (name == n) = false := by simpa using h.symm
  rw [List.lookup_cons, apart]

theorem lookup_cons_of_eq (h : e.1 = name) : (e :: es).lookup name = some e.2 := by
  subst h
  exact List.lookup_cons_self

/-- What stands under a name is the value of the first entry of this name. -/
theorem lookup_eq_head? (es : List (String × Json)) (name : String) :
    es.lookup name = (es.filter (·.1 == name)).head?.map (·.2) := by
  induction es with
  | nil => rfl
  | cons e es ih =>
    by_cases here : e.1 = name
    · rw [lookup_cons_of_eq here, List.filter_cons_of_pos (by simpa using here)]
      rfl
    · rw [lookup_cons_of_ne here, List.filter_cons_of_neg (by simpa using here), ih]

/-- The entries of a name that is not repeated are at most one, whose value is what stands there. -/
theorem filter_of_once (once : Once es name) :
    es.filter (·.1 == name) = ((es.lookup name).map (name, ·)).toList := by
  rw [lookup_eq_head?]
  have here : ∀ e ∈ es.filter (·.1 == name), e.1 = name := fun e he ↦
    eq_of_beq (List.mem_filter.mp he).2
  unfold Once at once
  cases found : es.filter (·.1 == name) with
  | nil => rfl
  | cons e rest =>
    rw [found] at once here
    cases rest with
    | nil =>
      have named : e.1 = name := here e List.mem_cons_self
      simp [← named]
    | cons e' rest => simp at once

/-! ## Another order -/

theorem once_perm (h : es.Perm es') : Once es name ↔ Once es' name := by
  rw [Once, Once, (h.filter _).length_eq]

/-- What is not repeated is found in any order of the entries. -/
theorem lookup_perm (h : es.Perm es') (once : Once es name) : es.lookup name = es'.lookup name := by
  have entries := h.filter (·.1 == name)
  rw [filter_of_once once, filter_of_once ((once_perm h).mp once)] at entries
  exact Option.map_injective (Prod.mk_right_injective name) (List.perm_option_toList.mp entries)

/-! ## Entries of other names -/

theorem once_cons_of_ne (h : e.1 ≠ name) :
    Once (e :: es) name ↔ Once es name := by
  rw [Once, List.filter_cons_of_neg (by simpa using h), Once]

/-- Whether a name is repeated does not depend on the values. -/
theorem once_cons (n : String) (i j : Json) :
    Once ((n, i) :: es) name ↔ Once ((n, j) :: es) name := by
  by_cases here : n = name
  · simp [Once, here]
  · exact (once_cons_of_ne here).trans (once_cons_of_ne here).symm

theorem once_filter (once : Once es name) : Once (es.filter (·.1 != other)) name :=
  Nat.le_trans (List.filter_sublist.filter _).length_le once

/-- Without the entries of one name, all others are found as before. -/
theorem lookup_filter (es : List (String × Json)) (name other : String) :
    (es.filter (·.1 != other)).lookup name = if name = other then none else es.lookup name := by
  induction es with
  | nil => simp
  | cons e es ih =>
    by_cases gone : e.1 = other
    · rw [List.filter_cons_of_neg (by simpa using gone), ih]
      split
      · rfl
      · next apart => rw [lookup_cons_of_ne fun same ↦ apart (same.symm.trans gone)]
    · rw [List.filter_cons_of_pos (by simpa using gone)]
      by_cases here : e.1 = name
      · rw [lookup_cons_of_eq here, lookup_cons_of_eq here, if_neg (here ▸ gone)]
      · rw [lookup_cons_of_ne here, lookup_cons_of_ne here, ih]

/-! ## Other values -/

/-- The entries with another value under a name, made of the one that stands there. -/
def mapAt (name : String) (f : Json → Json) (es : List (String × Json)) : List (String × Json) :=
  es.map fun e ↦ if e.1 = name then (e.1, f e.2) else e

variable {f : Json → Json}

theorem once_mapAt : Once (mapAt other f es) name ↔ Once es name := by
  have names : ((·.1 == name) ∘ fun e : String × Json ↦ if e.1 = other then (e.1, f e.2) else e) =
      (·.1 == name) := by
    funext e
    dsimp only [Function.comp]
    split <;> rfl
  rw [Once, mapAt, List.filter_map, List.length_map, names, Once]

theorem lookup_mapAt (es : List (String × Json)) (name other : String) :
    (mapAt other f es).lookup name =
      if name = other then (es.lookup name).map f else es.lookup name := by
  induction es with
  | nil => simp [mapAt]
  | cons e es ih =>
    have head : mapAt other f (e :: es) =
      (if e.1 = other then (e.1, f e.2) else e) :: mapAt other f es := rfl
    rw [head]
    by_cases here : e.1 = name
    · rw [lookup_cons_of_eq here]
      split
      · next changed =>
        rw [lookup_cons_of_eq (e := (e.1, f e.2)) here, if_pos (here.symm.trans changed),
          Option.map_some]
      · next kept => rw [lookup_cons_of_eq here, if_neg (here ▸ kept)]
    · have named : (if e.1 = other then (e.1, f e.2) else e).1 ≠ name := by split <;> exact here
      rw [lookup_cons_of_ne named, lookup_cons_of_ne here, ih]

end Outreach.Json
