import PluginDiscovery.Json.Reading
import PluginDiscovery.Types.Basic

/-!
# Type declarations as JSON

Kinds, markers and declarations are written as JSON and read back. A written record is an object
with all its fields. Read, it may be an object, in which further members are ignored, or an array of
the fields in order. A marker needs only its name, a declaration may leave out its superclass and
its marker, and a kind may also be given as an object whose one member is `null`.
-/

namespace PluginDiscovery

open Json (ReadError)

/-! ## Kinds -/

namespace Kind

/-- The kind as JSON. -/
def toJson (kind : Kind) : Json := .string kind.label

/-- The kind with this word. -/
def ofWord (word : String) : Except ReadError Kind :=
  match ofLabel? word with
  | some kind => .ok kind
  | none => .error (.unknownVariant word (all.map label))

/-- Reads a kind. -/
def ofJson : Json → Except ReadError Kind
  | .string word => ofWord word
  | .object [(word, value)] => do
    let kind ← ofWord word
    match value with
    | .null => return kind
    | value => value.mismatch "unit"
  | .object _ => .error (.invalidValue "map" "map with a single key")
  | value => value.mismatch "string or map"

end Kind

/-! ## Markers -/

namespace Marker

/-- The marker as JSON. -/
def toJson (marker : Marker) : Json :=
  .object [("name", .string marker.name), ("description", .string marker.description),
    ("version", .string marker.version), ("enabled", .bool marker.enabled)]

/-- The fields of a marker that have been read so far. -/
structure Draft where
  /-- The name. -/
  name : Option String := none
  /-- The description. -/
  description : Option String := none
  /-- The version. -/
  version : Option String := none
  /-- Whether the plugin is switched on. -/
  enabled : Option Bool := none

/-- Reads one member of an object; a member of another name is ignored. -/
def Draft.read (draft : Draft) (member : String × Json) : Except ReadError Draft :=
  match member.1 with
  | "name" => do return { draft with name := ← Json.fill "name" draft.name member.2.toText }
  | "description" => do
    return { draft with
      description := ← Json.fill "description" draft.description member.2.toText }
  | "version" => do
    return { draft with version := ← Json.fill "version" draft.version member.2.toText }
  | "enabled" => do
    return { draft with enabled := ← Json.fill "enabled" draft.enabled member.2.toBool }
  | _ => .ok draft

/-- The marker of the fields; all but the name have a default. -/
def Draft.finish (draft : Draft) : Except ReadError Marker := do
  return {
    name := ← Json.required "name" draft.name
    description := draft.description.getD ""
    version := draft.version.getD ""
    enabled := draft.enabled.getD true
  }

/-- Reads the fields of a marker in order. An array may end after any field but must have one. -/
def ofItems (items : List Json) : Except ReadError Marker :=
  match items with
  | [] => .error (.tooShort 0 "struct PluginMarker with 4 elements")
  | name :: rest => do
    let name ← name.toText
    let description ← (rest[0]?.map Json.toText).getD (.ok "")
    let version ← (rest[1]?.map Json.toText).getD (.ok "")
    let enabled ← (rest[2]?.map Json.toBool).getD (.ok true)
    if 3 < rest.length then throw (.tooLong items.length)
    return { name, description, version, enabled }

/-- Reads a marker. -/
def ofJson : Json → Except ReadError Marker
  | .object members => do (← members.foldlM Draft.read {}).finish
  | .array items => ofItems items
  | value => value.mismatch "struct PluginMarker"

end Marker

/-! ## Declarations -/

namespace TypeDecl

/-- The declaration as JSON. -/
def toJson (decl : TypeDecl) : Json :=
  .object [("name", .string decl.name), ("kind", decl.kind.toJson),
    ("superclass", .ofOption decl.superclass), ("interfaces", .ofStrings decl.interfaces),
    ("requires", .ofStrings decl.requires),
    ("marker", match decl.marker with | none => .null | some marker => marker.toJson)]

/-- The fields of a declaration that have been read so far. -/
structure Draft where
  /-- The name. -/
  name : Option String := none
  /-- The kind. -/
  kind : Option Kind := none
  /-- The superclass, which may be given as none. -/
  superclass : Option (Option String) := none
  /-- The interfaces. -/
  interfaces : Option (List String) := none
  /-- The required types. -/
  requires : Option (List String) := none
  /-- The marker, which may be given as none. -/
  marker : Option (Option Marker) := none

/-- Reads one member of an object; a member of another name is ignored. -/
def Draft.read (draft : Draft) (member : String × Json) : Except ReadError Draft :=
  match member.1 with
  | "name" => do return { draft with name := ← Json.fill "name" draft.name member.2.toText }
  | "kind" => do return { draft with kind := ← Json.fill "kind" draft.kind (Kind.ofJson member.2) }
  | "superclass" => do
    return { draft with
      superclass := ← Json.fill "superclass" draft.superclass (member.2.toOption Json.toText) }
  | "interfaces" => do
    return { draft with
      interfaces := ← Json.fill "interfaces" draft.interfaces member.2.toTexts }
  | "requires" => do
    return { draft with requires := ← Json.fill "requires" draft.requires member.2.toTexts }
  | "marker" => do
    return { draft with
      marker := ← Json.fill "marker" draft.marker (member.2.toOption Marker.ofJson) }
  | _ => .ok draft

/-- The declaration of the fields; only the superclass and the marker may be left out. -/
def Draft.finish (draft : Draft) : Except ReadError TypeDecl := do
  return {
    name := ← Json.required "name" draft.name
    kind := ← Json.required "kind" draft.kind
    superclass := draft.superclass.getD none
    interfaces := ← Json.required "interfaces" draft.interfaces
    requires := ← Json.required "requires" draft.requires
    marker := draft.marker.getD none
  }

/-- The item of an array at a place, or the error that the array ends before it. -/
def itemAt (items : List Json) (place : Nat) : Except ReadError Json :=
  match items[place]? with
  | some item => .ok item
  | none => .error (.tooShort place "struct TypeInfo with 6 elements")

/-- Reads the fields of a declaration in order; none may be left out. -/
def ofItems (items : List Json) : Except ReadError TypeDecl := do
  let name ← (← itemAt items 0).toText
  let kind ← Kind.ofJson (← itemAt items 1)
  let superclass ← (← itemAt items 2).toOption Json.toText
  let interfaces ← (← itemAt items 3).toTexts
  let requires ← (← itemAt items 4).toTexts
  let marker ← (← itemAt items 5).toOption Marker.ofJson
  if 6 < items.length then throw (.tooLong items.length)
  return { name, kind, superclass, interfaces, requires, marker }

/-- Reads a declaration. -/
def ofJson : Json → Except ReadError TypeDecl
  | .object members => do (← members.foldlM Draft.read {}).finish
  | .array items => ofItems items
  | value => value.mismatch "struct TypeInfo"

end TypeDecl

end PluginDiscovery
