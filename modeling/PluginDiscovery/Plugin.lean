import PluginDiscovery.Types.Basic
import PluginDiscovery.Version

/-!
# Plugins

A plugin is what discovery makes of a marked type: the type itself and a copy of what its marker
says. A plugin is standard when the name of its type starts with the standard namespace.
-/

namespace PluginDiscovery

/-- A discovered extension point or implementation. -/
structure Plugin where
  /-- The type that carries the marker. -/
  owner : TypeDecl
  /-- The logical name. -/
  name : String
  /-- What the plugin is for; empty when nothing is said. -/
  description : String
  /-- The version; empty when none is given. -/
  version : String
  /-- Whether the plugin is switched on. -/
  enabled : Bool
  /-- Whether the type belongs to the standard namespace. -/
  standard : Bool
deriving DecidableEq, Repr

namespace Plugin

/-- The plugin of a type and a marker. -/
def ofMarker (owner : TypeDecl) (marker : Marker) (standard : Bool) : Plugin where
  owner := owner
  name := marker.name
  description := marker.description
  version := marker.version
  enabled := marker.enabled
  standard := standard

/-- The plugin of a type, if the type is marked. -/
def ofDecl? (standardNamespace : String) (decl : TypeDecl) : Option Plugin :=
  decl.marker.map fun marker => ofMarker decl marker (decl.name.startsWith standardNamespace)

/-- The description, unless it is empty. -/
def description? (p : Plugin) : Option String :=
  if p.description.isEmpty then none else some p.description

/-- The version as it is given, unless it is empty. -/
def version? (p : Plugin) : Option String := if p.version.isEmpty then none else some p.version

/-- The version, where it can be read as a semantic one. -/
def semanticVersion? (p : Plugin) : Option Version := p.version?.bind Version.ofText?

/-- The plugin in one line: its name and that of its type. -/
def label (p : Plugin) : String := s!"{p.name} ({p.owner.name})"

theorem isSome_ofDecl? (standardNamespace : String) (decl : TypeDecl) :
    (ofDecl? standardNamespace decl).isSome = decl.isMarked := by
  simp [ofDecl?, TypeDecl.isMarked]

end Plugin

end PluginDiscovery
