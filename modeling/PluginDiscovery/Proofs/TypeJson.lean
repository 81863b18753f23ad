import PluginDiscovery.Proofs.RecordReading
import PluginDiscovery.Types.Json

/-!
# Declarations read back

`Marker.Reads` and `TypeDecl.Reads` say what an object has to give for each field of a record that
is read from it. A record that is written gives just this, also when its members are in another
order, when there are further members, and when fields are left out that have their defaults.
`records_read_back` puts together what follows for markers and declarations.
-/

namespace PluginDiscovery

open Json (valuesOf Fills Given GivenOr)

/-! ## Single values -/

theorem Json.toTexts_ofStrings (texts : List String) : (ofStrings texts).toTexts = .ok texts := by
  have hmapM : (texts.map string).mapM toText = .ok texts := by
    induction texts with
    | nil => rfl
    | cons text rest ih =>
      rw [List.map_cons, List.mapM_cons, ih]
      rfl
  exact hmapM

theorem Json.toOption_ofOption (text : Option String) :
    (ofOption text).toOption toText = .ok text := by
  cases text <;> rfl

theorem Kind.ofJson_toJson (kind : Kind) : ofJson kind.toJson = .ok kind := by
  cases kind <;> decide

/-! ## Markers -/

namespace Marker

/-- The fields of a marker. -/
inductive Field where
  /-- What the plugin is called. -/
  | name
  /-- What it is for. -/
  | description
  /-- Its version. -/
  | version
  /-- Whether it is switched on. -/
  | enabled

/-- The name of a field in an object. -/
def Field.word : Field → String
  | name => "name"
  | description => "description"
  | version => "version"
  | enabled => "enabled"

/-- How the fields of a marker are read. -/
def layout : Json.Layout Draft where
  Field := Field
  Value
    | .enabled => Bool
    | _ => String
  name := Field.word
  read
    | .name => Json.toText
    | .description => Json.toText
    | .version => Json.toText
    | .enabled => Json.toBool
  place
    | .name => Draft.name
    | .description => Draft.description
    | .version => Draft.version
    | .enabled => Draft.enabled
  put
    | .name => fun x draft => { draft with name := x }
    | .description => fun x draft => { draft with description := x }
    | .version => fun x draft => { draft with version := x }
    | .enabled => fun x draft => { draft with enabled := x }
  step := Draft.read
  name_injective {field other} h := by
    cases field <;> cases other <;> first | rfl | exact absurd h (by decide)
  place_put field x draft := by
    cases field <;> rfl
  place_put_of_ne {field other} h x draft := by
    cases field <;> cases other <;> first | rfl | exact absurd rfl h
  ext {draft other} h := by
    cases draft
    cases other
    have hname := h .name
    have hdescription := h .description
    have hversion := h .version
    have henabled := h .enabled
    simp_all
  step_field draft field value := by
    cases field <;> rfl
  step_other draft {member} h := by
    unfold Draft.read
    split
    · next heq => exact absurd heq.symm (h .name)
    · next heq => exact absurd heq.symm (h .description)
    · next heq => exact absurd heq.symm (h .version)
    · next heq => exact absurd heq.symm (h .enabled)
    · rfl

theorem finish_eq_ok_iff {draft : Draft} {marker : Marker} :
    draft.finish = .ok marker ↔
      draft.name = some marker.name ∧ draft.description.getD "" = marker.description ∧
        draft.version.getD "" = marker.version ∧ draft.enabled.getD true = marker.enabled := by
  unfold Draft.finish
  simp only [Json.bind_eq_ok_iff, Json.required_eq_ok_iff]
  constructor
  · rintro ⟨name, hname, h⟩
    cases h
    exact ⟨hname, rfl, rfl, rfl⟩
  · rintro ⟨hname, hdescription, hversion, henabled⟩
    refine ⟨marker.name, hname, ?_⟩
    rw [hdescription, hversion, henabled]
    rfl

/-- What the members of an object give for the fields of a marker: the name is there, and what else
is not has its default. -/
structure Reads (members : List (String × Json)) (marker : Marker) : Prop where
  /-- The name has to be there. -/
  name : Given Json.toText (valuesOf "name" members) marker.name
  /-- Without one the description is empty. -/
  description : GivenOr Json.toText "" (valuesOf "description" members) marker.description
  /-- So is the version. -/
  version : GivenOr Json.toText "" (valuesOf "version" members) marker.version
  /-- A marker is enabled unless it says otherwise. -/
  enabled : GivenOr Json.toBool true (valuesOf "enabled" members) marker.enabled

theorem ofJson_object_eq_ok_iff {members : List (String × Json)} {marker : Marker} :
    ofJson (.object members) = .ok marker ↔ Reads members marker := by
  unfold ofJson
  rw [Json.bind_eq_ok_iff]
  constructor
  · rintro ⟨draft, hdraft, hfinish⟩
    have hfills := layout.foldlM_eq_ok_iff.1 hdraft
    obtain ⟨hname, hdescription, hversion, henabled⟩ := finish_eq_ok_iff.1 hfinish
    constructor
    · exact Json.fills_some_iff.1 (hname ▸ hfills .name)
    · exact Json.exists_fills_getD_iff.1 ⟨_, hfills .description, hdescription⟩
    · exact Json.exists_fills_getD_iff.1 ⟨_, hfills .version, hversion⟩
    · exact Json.exists_fills_getD_iff.1 ⟨_, hfills .enabled, henabled⟩
  · rintro ⟨hname, hdescription, hversion, henabled⟩
    obtain ⟨description, hdescription, hdescribed⟩ := Json.exists_fills_getD_iff.2 hdescription
    obtain ⟨version, hversion, hversioned⟩ := Json.exists_fills_getD_iff.2 hversion
    obtain ⟨enabled, henabled, hswitched⟩ := Json.exists_fills_getD_iff.2 henabled
    refine ⟨⟨some marker.name, description, version, enabled⟩, layout.foldlM_eq_ok_iff.2 ?_,
      finish_eq_ok_iff.2 ⟨rfl, hdescribed, hversioned, hswitched⟩⟩
    intro field
    cases field with
    | name => exact Json.fills_some_iff.2 hname
    | description => exact hdescription
    | version => exact hversion
    | enabled => exact henabled

/-- The members of a marker that is written. -/
def fields (marker : Marker) : List (String × Json) :=
  [("name", .string marker.name), ("description", .string marker.description),
    ("version", .string marker.version), ("enabled", .bool marker.enabled)]

/-- The fields that may be left out, with their defaults. -/
def defaults : List (String × Json) :=
  [("description", .string ""), ("version", .string ""), ("enabled", .bool true)]

theorem reads_of_shows {members : List (String × Json)} {marker : Marker}
    (h : Json.Shows marker.fields defaults members) : Reads members marker where
  name := h.given_of_read rfl rfl (by simp [defaults])
  description := h.givenOr_of_read rfl rfl (by simp [defaults, Json.toText])
  version := h.givenOr_of_read rfl rfl (by simp [defaults, Json.toText])
  enabled := h.givenOr_of_read rfl rfl (by simp [defaults, Json.toBool])

/-- The forms of a marker: an array of its fields, and the objects that show them. -/
inductive Form (marker : Marker) : Json → Prop
  /-- The fields one after the other. -/
  | array : Form marker (.array (marker.fields.map (·.2)))
  /-- The fields by their names. -/
  | object {members : List (String × Json)} (h : Json.Shows marker.fields defaults members) :
    Form marker (.object members)

theorem form_toJson (marker : Marker) : marker.Form marker.toJson :=
  .object (.refl marker.fields defaults)

theorem ofJson_of_form {marker : Marker} {written : Json} (h : marker.Form written) :
    ofJson written = .ok marker := by
  cases h with
  | array => rfl
  | object hshows => exact ofJson_object_eq_ok_iff.2 (reads_of_shows hshows)

end Marker

/-! ## Declarations -/

namespace TypeDecl

/-- The fields of a declaration. -/
inductive Field where
  /-- The name of the type. -/
  | name
  /-- What kind of type it is. -/
  | kind
  /-- The type that it extends. -/
  | superclass
  /-- The interfaces that it lists. -/
  | interfaces
  /-- Further types that have to be present. -/
  | requires
  /-- What marks it as a plugin. -/
  | marker

/-- The name of a field in an object. -/
def Field.word : Field → String
  | name => "name"
  | kind => "kind"
  | superclass => "superclass"
  | interfaces => "interfaces"
  | requires => "requires"
  | marker => "marker"

/-- How the fields of a declaration are read. -/
def layout : Json.Layout Draft where
  Field := Field
  Value
    | .name => String
    | .kind => Kind
    | .superclass => Option String
    | .interfaces => List String
    | .requires => List String
    | .marker => Option Marker
  name := Field.word
  read
    | .name => Json.toText
    | .kind => Kind.ofJson
    | .superclass => Json.toOption Json.toText
    | .interfaces => Json.toTexts
    | .requires => Json.toTexts
    | .marker => Json.toOption Marker.ofJson
  place
    | .name => Draft.name
    | .kind => Draft.kind
    | .superclass => Draft.superclass
    | .interfaces => Draft.interfaces
    | .requires => Draft.requires
    | .marker => Draft.marker
  put
    | .name => fun x draft => { draft with name := x }
    | .kind => fun x draft => { draft with kind := x }
    | .superclass => fun x draft => { draft with superclass := x }
    | .interfaces => fun x draft => { draft with interfaces := x }
    | .requires => fun x draft => { draft with requires := x }
    | .marker => fun x draft => { draft with marker := x }
  step := Draft.read
  name_injective {field other} h := by
    cases field <;> cases other <;> first | rfl | exact absurd h (by decide)
  place_put field x draft := by
    cases field <;> rfl
  place_put_of_ne {field other} h x draft := by
    cases field <;> cases other <;> first | rfl | exact absurd rfl h
  ext {draft other} h := by
    cases draft
    cases other
    have hname := h .name
    have hkind := h .kind
    have hsuperclass := h .superclass
    have hinterfaces := h .interfaces
    have hrequires := h .requires
    have hmarker := h .marker
    simp_all
  step_field draft field value := by
    cases field <;> rfl
  step_other draft {member} h := by
    unfold Draft.read
    split
    · next heq => exact absurd heq.symm (h .name)
    · next heq => exact absurd heq.symm (h .kind)
    · next heq => exact absurd heq.symm (h .superclass)
    · next heq => exact absurd heq.symm (h .interfaces)
    · next heq => exact absurd heq.symm (h .requires)
    · next heq => exact absurd heq.symm (h .marker)
    · rfl

theorem finish_eq_ok_iff {draft : Draft} {decl : TypeDecl} :
    draft.finish = .ok decl ↔
      draft.name = some decl.name ∧ draft.kind = some decl.kind ∧
        draft.superclass.getD none = decl.superclass ∧
        draft.interfaces = some decl.interfaces ∧ draft.requires = some decl.requires ∧
        draft.marker.getD none = decl.marker := by
  unfold Draft.finish
  simp only [Json.bind_eq_ok_iff, Json.required_eq_ok_iff]
  constructor
  · rintro ⟨name, hname, kind, hkind, interfaces, hinterfaces, requires, hrequires, h⟩
    cases h
    exact ⟨hname, hkind, rfl, hinterfaces, hrequires, rfl⟩
  · rintro ⟨hname, hkind, hsuperclass, hinterfaces, hrequires, hmarker⟩
    refine ⟨decl.name, hname, decl.kind, hkind, decl.interfaces, hinterfaces, decl.requires,
      hrequires, ?_⟩
    rw [hsuperclass, hmarker]
    rfl

/-- What the members of an object give for the fields of a declaration: all are there but for the
superclass and the marker, which may be left out. -/
structure Reads (members : List (String × Json)) (decl : TypeDecl) : Prop where
  /-- The name has to be there. -/
  name : Given Json.toText (valuesOf "name" members) decl.name
  /-- So does the kind. -/
  kind : Given Kind.ofJson (valuesOf "kind" members) decl.kind
  /-- A type need not have a superclass. -/
  superclass : GivenOr (Json.toOption Json.toText) none (valuesOf "superclass" members)
    decl.superclass
  /-- The interfaces have to be there, even if there are none. -/
  interfaces : Given Json.toTexts (valuesOf "interfaces" members) decl.interfaces
  /-- So do the further types. -/
  requires : Given Json.toTexts (valuesOf "requires" members) decl.requires
  /-- A type need not be marked. -/
  marker : GivenOr (Json.toOption Marker.ofJson) none (valuesOf "marker" members) decl.marker

theorem ofJson_object_eq_ok_iff {members : List (String × Json)} {decl : TypeDecl} :
    ofJson (.object members) = .ok decl ↔ Reads members decl := by
  unfold ofJson
  rw [Json.bind_eq_ok_iff]
  constructor
  · rintro ⟨draft, hdraft, hfinish⟩
    have hfills := layout.foldlM_eq_ok_iff.1 hdraft
    obtain ⟨hname, hkind, hsuperclass, hinterfaces, hrequires, hmarker⟩ :=
      finish_eq_ok_iff.1 hfinish
    constructor
    · exact Json.fills_some_iff.1 (hname ▸ hfills .name)
    · exact Json.fills_some_iff.1 (hkind ▸ hfills .kind)
    · exact Json.exists_fills_getD_iff.1 ⟨_, hfills .superclass, hsuperclass⟩
    · exact Json.fills_some_iff.1 (hinterfaces ▸ hfills .interfaces)
    · exact Json.fills_some_iff.1 (hrequires ▸ hfills .requires)
    · exact Json.exists_fills_getD_iff.1 ⟨_, hfills .marker, hmarker⟩
  · rintro ⟨hname, hkind, hsuperclass, hinterfaces, hrequires, hmarker⟩
    obtain ⟨superclass, hsuperclass, hextended⟩ := Json.exists_fills_getD_iff.2 hsuperclass
    obtain ⟨marker, hmarker, hmarked⟩ := Json.exists_fills_getD_iff.2 hmarker
    refine ⟨⟨some decl.name, some decl.kind, superclass, some decl.interfaces, some decl.requires,
      marker⟩, layout.foldlM_eq_ok_iff.2 ?_,
      finish_eq_ok_iff.2 ⟨rfl, rfl, hextended, rfl, rfl, hmarked⟩⟩
    intro field
    cases field with
    | name => exact Json.fills_some_iff.2 hname
    | kind => exact Json.fills_some_iff.2 hkind
    | superclass => exact hsuperclass
    | interfaces => exact Json.fills_some_iff.2 hinterfaces
    | requires => exact Json.fills_some_iff.2 hrequires
    | marker => exact hmarker

/-- The forms of a marker that there may be: any form of the marker, or `null` for none. -/
inductive MarkerForm : Option Marker → Json → Prop
  /-- No marker is written as `null`. -/
  | absent : MarkerForm none .null
  /-- A marker has any of its forms. -/
  | present {marker : Marker} {written : Json} (h : marker.Form written) :
    MarkerForm (some marker) written

theorem MarkerForm.toOption_eq {marker : Option Marker} {written : Json}
    (h : MarkerForm marker written) : written.toOption Marker.ofJson = .ok marker := by
  cases h with
  | absent => rfl
  | @present marker _ hform =>
    have hread : written.toOption Marker.ofJson = some <$> Marker.ofJson written := by
      cases hform <;> rfl
    rw [hread, Marker.ofJson_of_form hform]
    rfl

/-- The members of a declaration that is written with this form of its marker. -/
def fields (decl : TypeDecl) (marker : Json) : List (String × Json) :=
  [("name", .string decl.name), ("kind", decl.kind.toJson),
    ("superclass", .ofOption decl.superclass), ("interfaces", .ofStrings decl.interfaces),
    ("requires", .ofStrings decl.requires), ("marker", marker)]

/-- The fields that may be left out, with their defaults. -/
def defaults : List (String × Json) := [("superclass", .null), ("marker", .null)]

section Forms

variable {decl : TypeDecl} {marker : Json} {members : List (String × Json)}

theorem reads_of_shows (hmarker : MarkerForm decl.marker marker)
    (h : Json.Shows (decl.fields marker) defaults members) : Reads members decl where
  name := h.given_of_read rfl rfl (by simp [defaults])
  kind := h.given_of_read rfl decl.kind.ofJson_toJson (by simp [defaults])
  superclass := h.givenOr_of_read rfl (Json.toOption_ofOption _)
    (by simp [defaults, Json.toOption])
  interfaces := h.given_of_read rfl (Json.toTexts_ofStrings _) (by simp [defaults])
  requires := h.given_of_read rfl (Json.toTexts_ofStrings _) (by simp [defaults])
  marker := h.givenOr_of_read rfl hmarker.toOption_eq (by simp [defaults, Json.toOption])

theorem ofItems_six (name kind superclass interfaces requires marker : Json) :
    ofItems [name, kind, superclass, interfaces, requires, marker] = (do
      let name ← name.toText
      let kind ← Kind.ofJson kind
      let superclass ← superclass.toOption Json.toText
      let interfaces ← interfaces.toTexts
      let requires ← requires.toTexts
      let marker ← marker.toOption Marker.ofJson
      return { name, kind, superclass, interfaces, requires, marker }) :=
  rfl

theorem ofJson_array (hmarker : MarkerForm decl.marker marker) :
    ofJson (.array ((decl.fields marker).map (·.2))) = .ok decl := by
  have hitems : ofJson (.array ((decl.fields marker).map (·.2))) =
      ofItems [.string decl.name, decl.kind.toJson, .ofOption decl.superclass,
        .ofStrings decl.interfaces, .ofStrings decl.requires, marker] := rfl
  rw [hitems, ofItems_six, Kind.ofJson_toJson, Json.toOption_ofOption, Json.toTexts_ofStrings,
    Json.toTexts_ofStrings, hmarker.toOption_eq]
  rfl

end Forms

/-- The forms of a declaration, each with any form of its marker: an array of its fields, and the
objects that show them. -/
inductive Form (decl : TypeDecl) : Json → Prop
  /-- The fields one after the other. -/
  | array {marker : Json} (hmarker : MarkerForm decl.marker marker) :
    Form decl (.array ((decl.fields marker).map (·.2)))
  /-- The fields by their names. -/
  | object {marker : Json} {members : List (String × Json)}
    (hmarker : MarkerForm decl.marker marker)
    (h : Json.Shows (decl.fields marker) defaults members) : Form decl (.object members)

theorem form_toJson (decl : TypeDecl) : decl.Form decl.toJson := by
  obtain ⟨name, kind, superclass, interfaces, requires, marker⟩ := decl
  cases marker with
  | none => exact .object .absent (.refl _ _)
  | some marker => exact .object (.present marker.form_toJson) (.refl _ _)

theorem ofJson_of_form {decl : TypeDecl} {written : Json} (h : decl.Form written) :
    ofJson written = .ok decl := by
  cases h with
  | array hmarker => exact ofJson_array hmarker
  | object hmarker hshows => exact ofJson_object_eq_ok_iff.2 (reads_of_shows hmarker hshows)

/-! ### Fields that are left out -/

theorem ofJson_insert_superclass {before after : List (String × Json)}
    (h : "superclass" ∉ (before ++ after).map (·.1)) :
    ofJson (.object (before ++ ("superclass", .null) :: after)) =
      ofJson (.object (before ++ after)) := by
  have hname : layout.name Field.superclass ∉ (before ++ after).map (·.1) := h
  have hnull : layout.read Field.superclass .null = .ok none := rfl
  refine layout.bind_insert hname rfl hnull ?_
  intro draft hplace
  have hsuperclass : draft.superclass = none := hplace
  show Draft.finish { draft with superclass := some none } = draft.finish
  unfold Draft.finish
  rw [hsuperclass]
  rfl

theorem ofJson_insert_marker {before after : List (String × Json)}
    (h : "marker" ∉ (before ++ after).map (·.1)) :
    ofJson (.object (before ++ ("marker", .null) :: after)) =
      ofJson (.object (before ++ after)) := by
  have hname : layout.name Field.marker ∉ (before ++ after).map (·.1) := h
  have hnull : layout.read Field.marker .null = .ok none := rfl
  refine layout.bind_insert hname rfl hnull ?_
  intro draft hplace
  have hmarker : draft.marker = none := hplace
  show Draft.finish { draft with marker := some none } = draft.finish
  unfold Draft.finish
  rw [hmarker]
  rfl

/-- The fields that may not be left out. -/
def requiredNames : List String := ["name", "kind", "interfaces", "requires"]

theorem ofJson_object_ne_ok {name : String} {members : List (String × Json)}
    (hrequired : name ∈ requiredNames) (h : name ∉ members.map (·.1)) (decl : TypeDecl) :
    ofJson (.object members) ≠ .ok decl := by
  intro hread
  have hreads := ofJson_object_eq_ok_iff.1 hread
  rw [← Json.valuesOf_eq_nil_iff] at h
  simp only [requiredNames, List.mem_cons, List.not_mem_nil, or_false] at hrequired
  rcases hrequired with rfl | rfl | rfl | rfl
  · exact Json.not_given_nil (h ▸ hreads.name)
  · exact Json.not_given_nil (h ▸ hreads.kind)
  · exact Json.not_given_nil (h ▸ hreads.interfaces)
  · exact Json.not_given_nil (h ▸ hreads.requires)

end TypeDecl

/-- Markers and declarations are read back from what they are written as and from all their other
forms. A superclass or a marker that is left out is as good as `null`, and nothing is read where
another field of a declaration is missing. -/
theorem records_read_back :
    (∀ marker : Marker, Marker.ofJson marker.toJson = .ok marker ∧
      ∀ written, marker.Form written → Marker.ofJson written = .ok marker) ∧
    (∀ decl : TypeDecl, TypeDecl.ofJson decl.toJson = .ok decl ∧
      ∀ written, decl.Form written → TypeDecl.ofJson written = .ok decl) ∧
    (∀ name ∈ TypeDecl.defaults.map (·.1), ∀ before after : List (String × Json),
      name ∉ (before ++ after).map (·.1) →
        TypeDecl.ofJson (.object (before ++ (name, .null) :: after)) =
          TypeDecl.ofJson (.object (before ++ after))) ∧
    ∀ name ∈ TypeDecl.requiredNames, ∀ members : List (String × Json),
      name ∉ members.map (·.1) → ∀ decl, TypeDecl.ofJson (.object members) ≠ .ok decl := by
  refine ⟨?marker, ?decl, ?left_out, ?missing⟩
  case marker =>
    intro marker
    exact ⟨Marker.ofJson_of_form marker.form_toJson, fun _ h => Marker.ofJson_of_form h⟩
  case decl =>
    intro decl
    exact ⟨TypeDecl.ofJson_of_form decl.form_toJson, fun _ h => TypeDecl.ofJson_of_form h⟩
  case left_out =>
    intro name hname before after h
    simp only [TypeDecl.defaults, List.map_cons, List.map_nil, List.mem_cons, List.not_mem_nil,
      or_false] at hname
    rcases hname with rfl | rfl
    · exact TypeDecl.ofJson_insert_superclass h
    · exact TypeDecl.ofJson_insert_marker h
  case missing =>
    intro name hname members h
    exact TypeDecl.ofJson_object_ne_ok hname h

/-- A declaration that is written by hand: its members stand in another order, its superclass and
most of its marker are left out, and both objects have a member that nobody asks for. Without its
name it is not read. -/
theorem handwritten_declaration_read :
    let marker : Json := .object [("since", .integer 3), ("name", .string "redis")]
    let members : List (String × Json) :=
      [("marker", marker), ("requires", .array []), ("comment", .null),
        ("interfaces", .array [.string "cache.Cache"]), ("kind", .string "concrete-class")]
    let decl : TypeDecl :=
      { name := "redis.Cache", kind := .concreteClass, interfaces := ["cache.Cache"]
        marker := some { name := "redis" } }
    TypeDecl.ofJson (.object (members ++ [("name", .string "redis.Cache")])) = .ok decl ∧
      TypeDecl.ofJson (.array ((decl.fields marker).map (·.2))) = .ok decl ∧
      TypeDecl.ofJson (.object (("superclass", .null) :: members)) =
        TypeDecl.ofJson (.object members) ∧
      TypeDecl.ofJson (.object members) ≠ .ok decl := by
  intro marker members decl
  have hmarker : Marker.Form { name := "redis" } marker := by
    refine .object ⟨List.Sublist.subperm (List.sublist_append_left [("name", _)] _), ?_⟩
    simp [Marker.fields, Marker.defaults]
  have hform : TypeDecl.MarkerForm decl.marker marker := .present hmarker
  obtain ⟨-, hread, hleft, hmissing⟩ := records_read_back
  refine ⟨(hread decl).2 _ (.object hform ⟨?_, ?_⟩), (hread decl).2 _ (.array hform),
    hleft "superclass" (by decide) [] members (by decide),
    hmissing "name" (by decide) members (by decide) decl⟩
  · exact ⟨(decl.fields marker).eraseIdx 2, (List.reverse_perm _).symm,
      List.eraseIdx_sublist _ _⟩
  · simp [TypeDecl.fields, TypeDecl.defaults, decl, members, Json.ofOption, Json.ofStrings,
      Kind.toJson, Kind.label]

end PluginDiscovery
