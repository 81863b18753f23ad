/-!
# Type declarations

Discovery never looks at code. Every type that a manifest may name is described by a declaration:
its name, what kind of type it is, the types it links against, and the marker that makes it
discoverable, if it carries one.
-/

namespace PluginDiscovery

/-- What kind of type a declaration describes. -/
inductive Kind where
  /-- A type that others implement. -/
  | interface
  /-- A class that cannot be instantiated. -/
  | abstractClass
  /-- A class that can. -/
  | concreteClass
deriving DecidableEq, Repr

namespace Kind

/-- Every kind, in the order in which they are listed to users. -/
def all : List Kind := [interface, abstractClass, concreteClass]

/-- The word for a kind in text. -/
def label : Kind → String
  | interface => "interface"
  | abstractClass => "abstract-class"
  | concreteClass => "concrete-class"

/-- The kind with exactly this word. -/
def ofLabel? (text : String) : Option Kind := all.find? fun kind => kind.label = text

theorem ofLabel?_label (kind : Kind) : ofLabel? kind.label = some kind := by
  cases kind <;> decide

end Kind

/-- The tag that makes a type discoverable. -/
structure Marker where
  /-- The logical name, unique within its registry. -/
  name : String
  /-- What the plugin is for; empty when nothing is said. -/
  description : String := ""
  /-- The version; empty when none is given. -/
  version : String := ""
  /-- Whether the plugin is switched on. Discovery lists it either way. -/
  enabled : Bool := true
deriving DecidableEq, Repr

/-- A declared type.

An interface lists the interfaces it extends under `interfaces`; a class lists there those that it
implements directly. -/
structure TypeDecl where
  /-- The fully qualified name. -/
  name : String
  /-- What kind of type it is. -/
  kind : Kind
  /-- The class it extends. -/
  superclass : Option String := none
  /-- The interfaces it extends or implements directly. -/
  interfaces : List String := []
  /-- Further types that must be present for it to link. -/
  requires : List String := []
  /-- The marker, if the type is discoverable. -/
  marker : Option Marker := none
deriving DecidableEq, Repr

namespace TypeDecl

/-- The declaration that also extends a type: an interface gains a super-interface, a class changes
its superclass. -/
def extending (decl : TypeDecl) (name : String) : TypeDecl :=
  match decl.kind with
  | .interface => { decl with interfaces := decl.interfaces ++ [name] }
  | _ => { decl with superclass := some name }

/-- The declaration that also implements an interface. -/
def implementing (decl : TypeDecl) (name : String) : TypeDecl :=
  { decl with interfaces := decl.interfaces ++ [name] }

/-- The declaration that also requires a type. -/
def requiring (decl : TypeDecl) (name : String) : TypeDecl :=
  { decl with requires := decl.requires ++ [name] }

/-- The declaration with a marker. -/
def marked (decl : TypeDecl) (marker : Marker) : TypeDecl := { decl with marker := some marker }

/-- Whether the type is an interface. -/
def isInterface (decl : TypeDecl) : Bool := decl.kind == .interface

/-- Whether the type is a concrete class. -/
def isConcreteClass (decl : TypeDecl) : Bool := decl.kind == .concreteClass

/-- Whether the type carries a marker. -/
def isMarked (decl : TypeDecl) : Bool := decl.marker.isSome

/-- The types it inherits from directly: the superclass, then the interfaces. -/
def parents (decl : TypeDecl) : List String := decl.superclass.toList ++ decl.interfaces

/-- The types it links against directly: its parents, then what it requires. -/
def dependencies (decl : TypeDecl) : List String := decl.parents ++ decl.requires

/-- Every parent is a dependency. -/
theorem mem_dependencies_of_mem_parents {decl : TypeDecl} {name : String}
    (h : name ∈ decl.parents) : name ∈ decl.dependencies :=
  List.mem_append_left _ h

end TypeDecl

end PluginDiscovery
