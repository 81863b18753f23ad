import Mathlib.Data.List.Perm.Subperm
import PluginDiscovery.Json.Reading

/-!
# Records read from objects

A record is read from the members of an object one by one, into a draft that has a place for every
field. A `Layout` says what there is to such a reader: which places there are, by which reader each
of them is filled, and that all other members are passed over. What is read depends only on the
values that the object has for each field (`Layout.foldlM_eq_ok_iff`), so neither the order of the
members matters nor what else there is. A field that is left out can be given by hand without any
other effect (`Layout.foldlM_insert`).
-/

namespace PluginDiscovery.Json

theorem bind_eq_ok_iff {α β : Type} {first : Except ReadError α} {next : α → Except ReadError β}
    {result : β} :
    (first >>= next) = .ok result ↔ ∃ x, first = .ok x ∧ next x = .ok result := by
  cases first <;> simp [bind, Except.bind]

theorem required_eq_ok_iff {α : Type} {name : String} {place : Option α} {x : α} :
    required name place = .ok x ↔ place = some x := by
  cases place <;> simp [required]

/-- The values of the members of one name, in order. -/
def valuesOf (name : String) (members : List (String × Json)) : List Json :=
  (members.filter (·.1 = name)).map (·.2)

section ValuesOf

variable {name : String} {value : Json} {members fields : List (String × Json)}

theorem valuesOf_cons_self (name : String) (value : Json) (rest : List (String × Json)) :
    valuesOf name ((name, value) :: rest) = value :: valuesOf name rest := by
  simp [valuesOf]

theorem valuesOf_cons_of_ne {member : String × Json} (h : member.1 ≠ name)
    (rest : List (String × Json)) : valuesOf name (member :: rest) = valuesOf name rest := by
  simp [valuesOf, h]

theorem valuesOf_eq_nil_iff : valuesOf name members = [] ↔ name ∉ members.map (·.1) := by
  unfold valuesOf
  rw [List.map_eq_nil_iff, List.filter_eq_nil_iff, List.mem_map, not_exists]
  refine forall_congr' fun member => ?_
  rw [decide_eq_true_iff, not_and]

theorem mem_valuesOf_iff : value ∈ valuesOf name members ↔ (name, value) ∈ members := by
  simp [valuesOf]

theorem valuesOf_filter {names : List String} (h : name ∈ names) :
    valuesOf name (members.filter (·.1 ∈ names)) = valuesOf name members := by
  unfold valuesOf
  rw [List.filter_filter]
  congr 1
  refine List.filter_congr ?_
  intro member _
  by_cases hname : member.1 = name
  · simp [hname, h]
  · simp [hname]

/-- An object that holds at most the fields of another one has at most the value of this one. -/
theorem valuesOf_of_subperm {names : List String} (h : name ∈ names)
    (hfields : (members.filter (·.1 ∈ names)).Subperm fields)
    (hvalue : valuesOf name fields = [value]) :
    valuesOf name members = [] ∨ valuesOf name members = [value] := by
  obtain ⟨kept, hperm, hsublist⟩ := hfields
  have hkept : (valuesOf name kept).Sublist (valuesOf name fields) := (hsublist.filter _).map _
  have hmembers : (valuesOf name kept).Perm (valuesOf name members) := by
    have hall : (valuesOf name kept).Perm (valuesOf name (members.filter (·.1 ∈ names))) :=
      (hperm.filter _).map _
    rwa [valuesOf_filter h] at hall
  rw [hvalue] at hkept
  exact List.subperm_singleton_iff.1 ⟨_, hmembers, hkept⟩

/-- The members of an object show the fields of a record: each field at most once, in any order and
among members of other names, and none is left out but those that have their defaults. -/
structure Shows (fields defaults members : List (String × Json)) : Prop where
  /-- What is there of the fields, with nothing else under their names. -/
  given : (members.filter (·.1 ∈ fields.map (·.1))).Subperm fields
  /-- What is not there has its default. -/
  left_out : ∀ field ∈ fields, field ∈ members ∨ field ∈ defaults

theorem Shows.refl (fields defaults : List (String × Json)) : Shows fields defaults fields where
  given := List.filter_sublist.subperm
  left_out _ hfield := .inl hfield

theorem Shows.valuesOf_eq {defaults : List (String × Json)} (h : Shows fields defaults members)
    (hvalue : valuesOf name fields = [value]) :
    valuesOf name members = [value] ∨ valuesOf name members = [] ∧ (name, value) ∈ defaults := by
  have hfield : (name, value) ∈ fields := by
    rw [← mem_valuesOf_iff, hvalue]
    exact List.mem_singleton_self value
  have hname : name ∈ fields.map (·.1) := List.mem_map_of_mem hfield
  rcases valuesOf_of_subperm hname h.given hvalue with hnil | hone
  · right
    refine ⟨hnil, (h.left_out _ hfield).resolve_left ?_⟩
    rw [← mem_valuesOf_iff, hnil]
    exact List.not_mem_nil
  · exact .inl hone

end ValuesOf

/-! ## Filling one place -/

section Fills

variable {α : Type} {read : Json → Except ReadError α}

/-- Values fill a place: there is none and the place stays as it is, or there is one and it is read
into a place that was empty. -/
inductive Fills (read : Json → Except ReadError α) : Option α → List Json → Option α → Prop
  /-- There is no value. -/
  | stays (place : Option α) : Fills read place [] place
  /-- There is one value. -/
  | once {value : Json} {x : α} (h : read value = .ok x) : Fills read none [value] (some x)

theorem fills_nil_iff {place final : Option α} : Fills read place [] final ↔ final = place := by
  constructor
  · intro h
    cases h
    rfl
  · rintro rfl
    exact .stays _

theorem fills_cons_iff (name : String) {place final : Option α} {value : Json}
    {rest : List Json} :
    Fills read place (value :: rest) final ↔
      ∃ next, fill name place (read value) = .ok next ∧ Fills read next rest final := by
  constructor
  · intro h
    cases h with
    | once hvalue =>
      refine ⟨_, ?_, .stays _⟩
      rw [hvalue]
      rfl
  · rintro ⟨next, hfill, hrest⟩
    cases place with
    | some x => cases hfill
    | none =>
      cases hvalue : read value with
      | error failure =>
        rw [hvalue] at hfill
        cases hfill
      | ok x =>
        rw [hvalue] at hfill
        cases hfill
        cases hrest
        exact .once hvalue

/-- A field that has to be there is given once and read to a value. -/
def Given (read : Json → Except ReadError α) (values : List Json) (x : α) : Prop :=
  ∃ value, values = [value] ∧ read value = .ok x

theorem not_given_nil {x : α} : ¬ Given read [] x := by
  rintro ⟨value, hvalue, -⟩
  cases hvalue

/-- A field that may be left out is given, or it has its default. -/
def GivenOr (read : Json → Except ReadError α) (default : α) (values : List Json) (x : α) : Prop :=
  values = [] ∧ x = default ∨ Given read values x

theorem fills_some_iff {values : List Json} {x : α} :
    Fills read none values (some x) ↔ Given read values x := by
  constructor
  · intro h
    cases h with
    | once hvalue => exact ⟨_, rfl, hvalue⟩
  · rintro ⟨value, rfl, hvalue⟩
    exact .once hvalue

theorem exists_fills_getD_iff {values : List Json} {default x : α} :
    (∃ place, Fills read none values place ∧ place.getD default = x) ↔
      GivenOr read default values x := by
  constructor
  · rintro ⟨place, hfills, rfl⟩
    cases hfills with
    | stays => exact .inl ⟨rfl, rfl⟩
    | once hvalue => exact .inr ⟨_, rfl, hvalue⟩
  · rintro (⟨rfl, rfl⟩ | ⟨value, rfl, hvalue⟩)
    · exact ⟨none, .stays _, rfl⟩
    · exact ⟨some x, .once hvalue, rfl⟩

section Shows

variable {name : String} {value : Json} {members fields defaults : List (String × Json)} {x : α}

/-- A field without a default is given by every object that shows it. -/
theorem Shows.given_of_read (h : Shows fields defaults members)
    (hvalue : valuesOf name fields = [value]) (hread : read value = .ok x)
    (hdefault : name ∉ defaults.map (·.1)) : Given read (valuesOf name members) x := by
  rcases h.valuesOf_eq hvalue with hone | ⟨-, hmem⟩
  · exact ⟨value, hone, hread⟩
  · exact absurd (List.mem_map_of_mem hmem) hdefault

/-- A field is left out only where it has the value that its default is read to. -/
theorem Shows.givenOr_of_read {default : α} (h : Shows fields defaults members)
    (hvalue : valuesOf name fields = [value]) (hread : read value = .ok x)
    (hdefault : ∀ usual, (name, usual) ∈ defaults → read usual = .ok default) :
    GivenOr read default (valuesOf name members) x := by
  rcases h.valuesOf_eq hvalue with hone | ⟨hnil, hmem⟩
  · exact .inr ⟨value, hone, hread⟩
  · have husual := hdefault value hmem
    rw [hread] at husual
    exact .inl ⟨hnil, Except.ok.inj husual⟩

end Shows

end Fills

/-! ## All places -/

/-- How a record is read into a draft: the fields and their names, the reader of each field and its
place in the draft. -/
structure Layout (σ : Type) where
  /-- The fields. -/
  Field : Type
  /-- What is read for a field. -/
  Value : Field → Type
  /-- The name under which a field stands in an object. -/
  name : Field → String
  /-- The reader of a field. -/
  read : (field : Field) → Json → Except ReadError (Value field)
  /-- What a draft has for a field so far. -/
  place : (field : Field) → σ → Option (Value field)
  /-- The draft with something else for a field. -/
  put : (field : Field) → Option (Value field) → σ → σ
  /-- What a member of the object does to a draft. -/
  step : σ → String × Json → Except ReadError σ
  /-- No two fields have one name. -/
  name_injective : ∀ {field other}, name field = name other → field = other
  /-- What is put in a place is there. -/
  place_put : ∀ field x draft, place field (put field x draft) = x
  /-- The other places stay as they are. -/
  place_put_of_ne : ∀ {field other}, other ≠ field →
    ∀ x draft, place other (put field x draft) = place other draft
  /-- A draft is what is in its places. -/
  ext : ∀ {draft other}, (∀ field, place field draft = place field other) → draft = other
  /-- A member with the name of a field fills the place of the field. -/
  step_field : ∀ draft field value, step draft (name field, value) =
    (put field · draft) <$> fill (name field) (place field draft) (read field value)
  /-- Any other member is passed over. -/
  step_other : ∀ draft {member}, (∀ field, name field ≠ member.1) → step draft member = .ok draft

namespace Layout

variable {σ : Type} (layout : Layout σ) {members : List (String × Json)}

theorem step_field_eq_ok_iff {draft next : σ} {field : layout.Field} {value : Json} :
    layout.step draft (layout.name field, value) = .ok next ↔
      ∃ x, fill (layout.name field) (layout.place field draft) (layout.read field value) = .ok x ∧
        next = layout.put field x draft := by
  rw [layout.step_field]
  cases fill (layout.name field) (layout.place field draft) (layout.read field value) with
  | error failure => simp
  | ok x => simp [eq_comm]

theorem valuesOf_cons_field {field other : layout.Field} (h : other ≠ field) (value : Json)
    (rest : List (String × Json)) :
    valuesOf (layout.name other) ((layout.name field, value) :: rest) =
      valuesOf (layout.name other) rest :=
  valuesOf_cons_of_ne (fun hname => h (layout.name_injective hname.symm)) rest

/-- Every place is filled by the values of its field, whatever else there is. -/
theorem foldlM_eq_ok_iff {start final : σ} :
    members.foldlM layout.step start = .ok final ↔
      ∀ field, Fills (layout.read field) (layout.place field start)
        (valuesOf (layout.name field) members) (layout.place field final) := by
  induction members generalizing start with
  | nil =>
    have hnil : ∀ field, valuesOf (layout.name field) [] = [] := fun _ => rfl
    simp only [hnil, fills_nil_iff]
    constructor
    · intro h field
      cases h
      rfl
    · intro h
      rw [layout.ext h]
      rfl
  | cons member rest ih =>
    obtain ⟨name, value⟩ := member
    rw [List.foldlM_cons]
    by_cases hfield : ∃ field, layout.name field = name
    · obtain ⟨field, rfl⟩ := hfield
      constructor
      · intro h other
        obtain ⟨next, hstep, hrest⟩ := bind_eq_ok_iff.1 h
        obtain ⟨x, hfill, rfl⟩ := layout.step_field_eq_ok_iff.1 hstep
        have hother := ih.1 hrest other
        by_cases heq : other = field
        · subst heq
          rw [layout.place_put] at hother
          rw [valuesOf_cons_self, fills_cons_iff (layout.name other)]
          exact ⟨x, hfill, hother⟩
        · rw [layout.place_put_of_ne heq] at hother
          rw [layout.valuesOf_cons_field heq]
          exact hother
      · intro h
        have hself := h field
        rw [valuesOf_cons_self, fills_cons_iff (layout.name field)] at hself
        obtain ⟨x, hfill, hrest⟩ := hself
        refine bind_eq_ok_iff.2 ⟨layout.put field x start,
          layout.step_field_eq_ok_iff.2 ⟨x, hfill, rfl⟩, ih.2 ?_⟩
        intro other
        by_cases heq : other = field
        · subst heq
          rw [layout.place_put]
          exact hrest
        · rw [layout.place_put_of_ne heq, ← layout.valuesOf_cons_field heq value]
          exact h other
    · have hother : ∀ field, layout.name field ≠ name := by
        intro field hname
        exact hfield ⟨field, hname⟩
      have hvalues : ∀ field, valuesOf (layout.name field) ((name, value) :: rest) =
          valuesOf (layout.name field) rest := by
        intro field
        exact valuesOf_cons_of_ne (hother field).symm rest
      rw [layout.step_other start hother]
      simp only [hvalues]
      exact ih

/-! ## Giving a field by hand -/

section Insert

variable {field : layout.Field}

theorem put_comm {other : layout.Field} (h : other ≠ field) (x : Option (layout.Value field))
    (y : Option (layout.Value other)) (draft : σ) :
    layout.put other y (layout.put field x draft) =
      layout.put field x (layout.put other y draft) := by
  refine layout.ext ?_
  intro third
  by_cases hfield : third = field
  · subst hfield
    rw [layout.place_put_of_ne (Ne.symm h), layout.place_put, layout.place_put]
  · by_cases hother : third = other
    · subst hother
      rw [layout.place_put, layout.place_put_of_ne h, layout.place_put]
    · rw [layout.place_put_of_ne hother, layout.place_put_of_ne hfield,
        layout.place_put_of_ne hfield, layout.place_put_of_ne hother]

/-- A member of another name does the same whatever stands in the place of a field. -/
theorem step_put {member : String × Json} (h : member.1 ≠ layout.name field)
    (x : Option (layout.Value field)) (draft : σ) :
    layout.step (layout.put field x draft) member =
      layout.put field x <$> layout.step draft member := by
  by_cases hfield : ∃ other, layout.name other = member.1
  · obtain ⟨other, hname⟩ := hfield
    have hne : other ≠ field := by
      rintro rfl
      exact h hname.symm
    have hmember : member = (layout.name other, member.2) := by rw [hname]
    rw [hmember, layout.step_field, layout.step_field, layout.place_put_of_ne hne]
    cases fill (layout.name other) (layout.place other draft) (layout.read other member.2) with
    | error failure => rfl
    | ok y => exact congrArg Except.ok (layout.put_comm hne x y draft)
  · have hother : ∀ other, layout.name other ≠ member.1 := by
      intro other hname
      exact hfield ⟨other, hname⟩
    rw [layout.step_other _ hother, layout.step_other _ hother]
    rfl

theorem foldlM_put (h : layout.name field ∉ members.map (·.1))
    (x : Option (layout.Value field)) (draft : σ) :
    members.foldlM layout.step (layout.put field x draft) =
      layout.put field x <$> members.foldlM layout.step draft := by
  induction members generalizing draft with
  | nil => rfl
  | cons member rest ih =>
    rw [List.map_cons, List.mem_cons, not_or] at h
    rw [List.foldlM_cons, List.foldlM_cons, layout.step_put (Ne.symm h.1)]
    cases layout.step draft member with
    | error failure => rfl
    | ok next => exact ih h.2 next

/-- A field that is left out keeps its place empty. -/
theorem place_of_foldlM {start final : σ} (h : layout.name field ∉ members.map (·.1))
    (hfinal : members.foldlM layout.step start = .ok final) :
    layout.place field final = layout.place field start := by
  have hfills := layout.foldlM_eq_ok_iff.1 hfinal field
  rw [valuesOf_eq_nil_iff.2 h] at hfills
  exact fills_nil_iff.1 hfills

/-- A field that is left out can be given anywhere. This puts its value into its place and has no
other effect. -/
theorem foldlM_insert {before after : List (String × Json)} {start : σ} {value : Json}
    {x : layout.Value field} (h : layout.name field ∉ (before ++ after).map (·.1))
    (hstart : layout.place field start = none) (hvalue : layout.read field value = .ok x) :
    (before ++ (layout.name field, value) :: after).foldlM layout.step start =
      layout.put field (some x) <$> (before ++ after).foldlM layout.step start := by
  rw [List.map_append, List.mem_append, not_or] at h
  rw [List.foldlM_append, List.foldlM_append]
  cases hbefore : before.foldlM layout.step start with
  | error failure => rfl
  | ok draft =>
    have hstep : layout.step draft (layout.name field, value) =
        .ok (layout.put field (some x) draft) := by
      rw [layout.step_field, layout.place_of_foldlM h.1 hbefore, hstart, hvalue]
      rfl
    have hrest := layout.foldlM_put h.2 (some x) draft
    exact (congrArg (· >>= fun next => after.foldlM layout.step next) hstep).trans hrest

/-- Giving by hand what is assumed of a field that is left out changes nothing. -/
theorem bind_insert {ρ : Type} {finish : σ → Except ReadError ρ}
    {before after : List (String × Json)} {start : σ} {value : Json} {x : layout.Value field}
    (h : layout.name field ∉ (before ++ after).map (·.1))
    (hstart : layout.place field start = none) (hvalue : layout.read field value = .ok x)
    (hfinish : ∀ draft, layout.place field draft = none →
      finish (layout.put field (some x) draft) = finish draft) :
    (before ++ (layout.name field, value) :: after).foldlM layout.step start >>= finish =
      (before ++ after).foldlM layout.step start >>= finish := by
  rw [layout.foldlM_insert h hstart hvalue]
  cases hfold : (before ++ after).foldlM layout.step start with
  | error failure => rfl
  | ok draft =>
    have hplace := layout.place_of_foldlM h hfold
    exact hfinish draft (hplace.trans hstart)

end Insert

end Layout

end PluginDiscovery.Json
