import Outreach.Proofs.Json.Entries
import Outreach.Proofs.Json.Fields

/-!
# What a record says

A value says something about each field of a record: an object by its entries, an array by its items
in the order of the fields. Reading a record makes of this what each field makes of what is given for
it, or of its absence, so neither the order of the entries nor an entry of another name matters.
-/

namespace Outreach.Json

variable {α β : Type} {names : List String} {name : String} {es es' : List (String × Json)}
  {items : List Json} {j j' : Json} {a : α}

/-! ## Single values -/

/-- What is read as a text is this text. -/
theorem eq_text_of_text? {s : String} (read : j.text? = some s) : j = .text s := by
  cases j with
  | text t =>
    cases read
    rfl
  | _ => cases read

/-- Each member of a list that is read is read from an item. -/
theorem exists_of_list? {read : Json → Option α} {as : List α}
    (h : list? read (.array items) = some as) : ∀ a ∈ as, ∃ i ∈ items, read i = some a := by
  induction items generalizing as with
  | nil =>
    cases h
    exact nofun
  | cons i items ih =>
    rw [list?, List.mapM_cons] at h
    obtain ⟨b, first, h⟩ := Option.bind_eq_some_iff.mp h
    obtain ⟨bs, rest, h⟩ := Option.bind_eq_some_iff.mp h
    cases h
    intro a ha
    rcases List.mem_cons.mp ha with rfl | there
    · exact ⟨i, List.mem_cons_self, first⟩
    · obtain ⟨k, inside, read⟩ := ih rest a there
      exact ⟨k, List.mem_cons_of_mem _ inside, read⟩

/-! ## Given values -/

/-- What is given under names, where items stand for the given names in their order. -/
def entriesBy (names : List String) : Json → List (String × Json)
  | .object es => es
  | .array items => names.zip items
  | _ => []

/-- What is given for a field of a record with the given names. -/
def given? (names : List String) (name : String) (j : Json) : Option Json :=
  (j.entriesBy names).lookup name

/-- A value of the form of a record with the given names: no name is repeated, or there are no more
items than names. -/
def IsRecord (names : List String) : Json → Prop
  | .object es => ∀ name ∈ names, Once es name
  | .array items => items.length ≤ names.length
  | _ => False

/-- What is given is one of the values in the record. -/
theorem mem_of_given? (given : j.given? names name = some j') : (name, j') ∈ j.entriesBy names := by
  obtain ⟨before, after, whole, -⟩ := List.lookup_eq_some_iff.mp given
  rw [whole]
  exact List.mem_append_right _ List.mem_cons_self

/-! ## Single fields -/

/-- Where nothing is usual, something has to be given. -/
theorem elim_none_eq_some_iff {given : Option Json} {read : Json → Option α} :
    given.elim none read = some a ↔ ∃ j, given = some j ∧ read j = some a := by
  cases given <;> simp

namespace Fields

/-- A field, with what holds where it is missing, if it may be. -/
def field (name : String) (usual : Option α) (read : Json → Option α) : Fields α := do
  match ← take name with
  | some j => StateT.lift (read j)
  | none => StateT.lift usual

theorem required_eq_field (read : Json → Option α) :
    required name read = field name none read := rfl

theorem withDefault_eq_field (default : α) (read : Json → Option α) :
    withDefault name default read = field name (some default) read := rfl

/-- Where a field leaves the same whatever it reads, the others go on from there. -/
theorem bind_of_eq_map {f : Fields β} {rest : β → Fields α} {s s' : Source} {b? : Option β}
    (ran : f s = b?.map (·, s')) : (f >>= rest) s = b?.bind (rest · s') := by
  show (f s).bind (fun r ↦ rest r.1 r.2) = _
  rw [ran, Option.bind_map]
  rfl

/-- Entries make of a field what the value that stands there does, unless its name is repeated. -/
theorem field_named_of_once (usual : Option α) (read : Json → Option α) (once : Once es name) :
    field name usual read (.named es) = ((es.lookup name).elim usual read).map (·, .named es) := by
  have found := filter_of_once once
  have taken : take name (.named es) = some (es.lookup name, .named es) := by
    cases given : es.lookup name with
    | none =>
      rw [given] at found
      simp only [take, found, Option.map_none, Option.toList_none]
    | some j =>
      rw [given] at found
      simp only [take, found, Option.map_some, Option.toList_some]
  show (take name (.named es)).bind _ = _
  rw [taken]
  cases es.lookup name with
  | none => cases usual <;> rfl
  | some j => cases h : read j <;> simp [h, StateT.lift]

/-- A field whose name is repeated is refused. -/
theorem field_named_of_not_once (usual : Option α) (read : Json → Option α)
    (repeated : ¬Once es name) : field name usual read (.named es) = none := by
  have taken : take name (.named es) = none := by
    unfold Once at repeated
    unfold take
    match found : es.filter (·.1 == name) with
    | [] => simp [found] at repeated
    | [e] => simp [found] at repeated
    | _ :: _ :: _ => simp only [found]
  show (take name (.named es)).bind _ = _
  rw [taken]
  rfl

theorem field_listed_nil (usual : Option α) (read : Json → Option α) :
    field name usual read (Source.listed []) = usual.map (·, Source.listed []) := by
  cases usual <;> rfl

theorem field_listed_cons (usual : Option α) (read : Json → Option α) :
    field name usual read (.listed (j :: items)) = (read j).map (·, .listed items) := by
  show StateT.lift (read j) (Source.listed items) = _
  cases read j <;> simp [StateT.lift]

end Fields

/-! ## Whole records -/

/-- What fields, one after the other, make of what is given for them. -/
inductive Reads {α : Type} : List String → Fields α → ((String → Option Json) → α → Prop) → Prop
  | done (a : α) : Reads [] (pure a) fun _ b ↦ a = b
  /-- A field, and others of which the record depends as well. -/
  | field {β : Type} {names : List String} {rest : β → Fields α}
      {tells : β → (String → Option Json) → α → Prop}
      (name : String) (usual : Option β) (read : Json → Option β)
      (others : ∀ b, Reads names (rest b) (tells b)) :
      Reads (name :: names) (Fields.field name usual read >>= rest)
        fun given a ↦ ∃ b, (given name).elim usual read = some b ∧ tells b given a

namespace Reads

variable {fields : Fields α} {tells : (String → Option Json) → α → Prop}
  {given given' : String → Option Json}

/-- A record depends on what is given for its fields alone. -/
theorem congr (h : Reads names fields tells) (same : ∀ name ∈ names, given name = given' name) :
    tells given a ↔ tells given' a := by
  induction h with
  | done => exact Iff.rfl
  | field name usual read _ ih =>
    have first : given name = given' name := same name List.mem_cons_self
    have rest := fun b ↦ ih b fun name hn ↦ same name (List.mem_cons_of_mem _ hn)
    simp only [first, rest]

/-- What is made of the entries of an object. -/
theorem named (h : Reads names fields tells) (es : List (String × Json)) :
    (fields (.named es)).map (·.1) = some a ↔
      (∀ name ∈ names, Once es name) ∧ tells (es.lookup ·) a := by
  induction h with
  | done b =>
    show some b = some a ↔ _
    simp
  | field name usual read _ ih =>
    rw [List.forall_mem_cons]
    by_cases once : Once es name
    · rw [Fields.bind_of_eq_map (Fields.field_named_of_once usual read once), Option.map_bind,
        Option.bind_eq_some_iff]
      simp only [Function.comp, ih, once, true_and]
      rw [← exists_and_left]
      exact exists_congr fun _ ↦ and_left_comm
    · have refused : Fields.field name usual read (.named es) =
          Option.map (·, Source.named es) none := Fields.field_named_of_not_once usual read once
      rw [Fields.bind_of_eq_map refused]
      simp [once]

/-- What is made of the items of an array. -/
theorem listed (h : Reads names fields tells) (distinct : names.Nodup) (items : List Json) :
    fields (.listed items) = some (a, .listed []) ↔
      items.length ≤ names.length ∧ tells ((names.zip items).lookup ·) a := by
  induction h generalizing items with
  | done b =>
    show some (b, Source.listed items) = some (a, .listed []) ↔ _
    cases items <;> simp
  | @field β names rest tells name usual read others ih =>
    obtain ⟨new, distinct⟩ := List.nodup_cons.mp distinct
    cases items with
    | nil =>
      rw [Fields.bind_of_eq_map (Fields.field_listed_nil usual read), Option.bind_eq_some_iff]
      simp [ih _ distinct]
    | cons j items =>
      -- the other fields are not given the first item
      have same (b : β) : tells b (((name :: names).zip (j :: items)).lookup ·) a ↔
          tells b ((names.zip items).lookup ·) a :=
        (others b).congr fun n hn ↦ lookup_cons_of_ne (ne_of_mem_of_not_mem hn new).symm
      rw [Fields.bind_of_eq_map (Fields.field_listed_cons usual read), Option.bind_eq_some_iff]
      have here : ((name :: names).zip (j :: items)).lookup name = some j := by simp
      simp only [ih _ distinct, same, here, Option.elim_some, List.length_cons,
        Nat.add_le_add_iff_right]
      rw [← exists_and_left]
      exact exists_congr fun _ ↦ and_left_comm

/-- A record is read from a value exactly if the value has the form of one and the fields make this
record of what is given for them. -/
theorem record?_eq_some_iff (h : Reads names fields tells) (distinct : names.Nodup) :
    record? fields j = some a ↔ j.IsRecord names ∧ tells (j.given? names ·) a := by
  cases j with
  | object es => exact h.named es
  | array items =>
    refine Iff.trans ?_ (h.listed distinct items)
    simp only [record?]
    split
    · next b left => simp [left]
    · next other => simpa using other a
  | _ => simp [record?, IsRecord]

end Reads

/-! ## Records put differently -/

/-- How a record can be put differently: its entries may stand in another order, and there may be
entries among them under names that the record does not have. -/
inductive Restated (names : List String) : Json → Json → Prop
  | order {es es' : List (String × Json)} (h : es.Perm es') :
    Restated names (.object es) (.object es')
  | unknown {name : String} (j : Json) (es : List (String × Json)) (h : name ∉ names) :
    Restated names (.object es) (.object ((name, j) :: es))

namespace Restated

theorem isRecord_iff (h : Restated names j j') : j.IsRecord names ↔ j'.IsRecord names := by
  cases h with
  | order h => exact forall₂_congr fun name _ ↦ once_perm h
  | unknown j es h =>
    exact forall₂_congr fun name hn ↦ (once_cons_of_ne (ne_of_mem_of_not_mem hn h).symm).symm

theorem given?_eq (h : Restated names j j') (shape : j.IsRecord names) (hn : name ∈ names) :
    j.given? names name = j'.given? names name := by
  cases h with
  | order h => exact lookup_perm h (shape name hn)
  | unknown j es h => exact (lookup_cons_of_ne (ne_of_mem_of_not_mem hn h).symm).symm

end Restated

/-! ## Changing an object -/

def IsObject : Json → Prop
  | .object _ => True
  | _ => False

/-- The object without the entries of a name; what is no object stays. -/
def without (name : String) : Json → Json
  | .object es => .object (es.filter (·.1 != name))
  | j => j

/-- The object with another value under a name, made of the one that stands there. -/
def within (name : String) (f : Json → Json) : Json → Json
  | .object es => .object (mapAt name f es)
  | j => j

variable {other : String} {f : Json → Json}

theorem IsRecord.without (h : j.IsRecord names) : (j.without other).IsRecord names := by
  cases j with
  | object es => exact fun name hn ↦ once_filter (h name hn)
  | _ => exact h

theorem given?_without (object : j.IsObject) :
    (j.without other).given? names name = if name = other then none else j.given? names name := by
  cases j with
  | object es => exact lookup_filter es name other
  | _ => exact object.elim

theorem isRecord_within : (j.within other f).IsRecord names ↔ j.IsRecord names := by
  cases j with
  | object es => exact forall₂_congr fun name _ ↦ once_mapAt
  | _ => exact Iff.rfl

theorem given?_within (object : j.IsObject) : (j.within other f).given? names name =
    if name = other then (j.given? names name).map f else j.given? names name := by
  cases j with
  | object es => exact lookup_mapAt es name other
  | _ => exact object.elim

end Outreach.Json
