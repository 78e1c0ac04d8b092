import Outreach.Json.Record
import Outreach.Proofs.Taking

/-!
# Records read back

A record that is written as an object is read field by field. Each field finds the value that stands
under its name, provided that no name comes twice.
-/

namespace Outreach.Json

variable {α : Type} {read : Json → Option α} {es : List (String × Json)} {name : String} {j : Json}
  {a : α}

/-! ## Single values -/

theorem text?_text (s : String) : text? (.text s) = some s := rfl

theorem bool?_bool (b : Bool) : bool? (.bool b) = some b := rfl

theorem count?_ofCount (n : UInt64) : count? (ofCount n) = some n := rfl

/-- A double that is finite is read as it was written. -/
theorem float?_ofFloat {x : Float} (finite : x.isFinite = true) : (ofFloat x).float? = some x := by
  rw [ofFloat, if_pos finite]
  rfl

/-- A text that may be missing is read as it was written. -/
theorem optional?_ofText? (s : Option String) : optional? text? (ofText? s) = some s :=
  optional?_ofOption s (fun _ ↦ rfl) (fun _ ↦ nofun)

/-- A list is read as it was written, if its items are. -/
theorem list?_ofList {f : α → Json} {xs : List α} (items : ∀ a ∈ xs, read (f a) = some a) :
    list? read (ofList f xs) = some xs := by
  show (xs.map f).mapM read = some xs
  induction xs with
  | nil => rfl
  | cons x xs ih =>
    have first := items x List.mem_cons_self
    have rest := ih fun a ha ↦ items a (List.mem_cons_of_mem _ ha)
    simp [first, rest]

/-! ## Fields of an object -/

def Stands (es : List (String × Json)) (name : String) (j : Json) : Prop :=
  es.filter (·.1 == name) = [(name, j)]

namespace Fields

theorem take_takes (h : Stands es name j) : Takes (take name) (.named es) (some j) (.named es) := by
  have found : es.filter (·.1 == name) = [(name, j)] := h
  simp only [Takes, take, found]

theorem required_takes (h : Stands es name j) (value : read j = some a) :
    Takes (required name read) (.named es) a (.named es) := by
  refine (take_takes h).bind ?_
  show (read j).bind _ = _
  rw [value]
  rfl

theorem withDefault_takes {default : α} (h : Stands es name j) (value : read j = some a) :
    Takes (withDefault name default read) (.named es) a (.named es) := by
  refine (take_takes h).bind ?_
  show (read j).bind _ = _
  rw [value]
  rfl

theorem optional_takes {a : Option α} (h : Stands es name j) (value : optional? read j = some a) :
    Takes (Fields.optional name read) (.named es) a (.named es) := by
  refine (take_takes h).bind ?_
  show (optional? read j).bind _ = _
  rw [value]
  rfl

theorem optionalD_takes {a : Option α} (h : Stands es name j) (value : optional? read j = some a) :
    Takes (optionalD name read) (.named es) a (.named es) :=
  withDefault_takes h value

end Fields

/-- An object from which the fields take a record is read as the record. -/
theorem record?_object {fields : Fields α} (h : Takes fields (.named es) a (.named es)) :
    record? fields (.object es) = some a := by
  have result : fields (.named es) = some (a, .named es) := h
  simp only [record?, result, Option.map_some]

end Outreach.Json
