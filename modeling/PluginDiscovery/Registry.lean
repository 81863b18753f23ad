import PluginDiscovery.Coherence
import PluginDiscovery.Text.Quoted

/-!
# Registries

A registry files plugins under their names. A load publishes both of its registries at once, so a
reader never sees extension points of one load beside implementations of another.

Implementations can be looked up by extension point: `Registry.implementing` finds those whose types
inherit from a given marked interface.
-/

namespace PluginDiscovery

/-- Plugins, each under its own name. -/
structure Registry where
  /-- The plugins by name. -/
  plugins : NameMap Plugin := ∅
  /-- Every plugin is filed under its own name. -/
  filed : ∀ name plugin, plugins.find? name = some plugin → plugin.name = name := by
    intro _ _ h; cases h
deriving DecidableEq

namespace Registry

/-- The registry without plugins. -/
def empty : Registry := {}

instance : Inhabited Registry := ⟨empty⟩

/-- Files a plugin, in place of an earlier one of the same name. -/
def insert (r : Registry) (plugin : Plugin) : Registry where
  plugins := r.plugins.insert plugin.name plugin
  filed name other h := by
    rw [NameMap.find?_insert] at h
    split at h
    · next heq => exact (Option.some.inj h) ▸ heq.symm
    · exact r.filed name other h

/-- The registry of a list of plugins, of which the last of each name counts. -/
def ofPlugins (plugins : List Plugin) : Registry := plugins.foldl insert empty

/-- The plugin of a name. -/
def get? (r : Registry) (name : String) : Option Plugin := r.plugins.find? name

/-- Whether there is a plugin of a name. -/
def contains (r : Registry) (name : String) : Bool := r.plugins.contains name

/-- The names, in increasing order. -/
def names (r : Registry) : List String := r.plugins.names

/-- The plugins, in increasing order of their names. -/
def toList (r : Registry) : List Plugin := r.plugins.values

/-- The plugins with their names, in increasing order. -/
def entries (r : Registry) : List (String × Plugin) :=
  r.toList.map fun plugin => (plugin.name, plugin)

/-- The number of plugins. -/
def size (r : Registry) : Nat := r.plugins.size

/-- Whether there is no plugin. -/
def isEmpty (r : Registry) : Bool := r.plugins.isEmpty

theorem name_of_get? {r : Registry} {name : String} {plugin : Plugin}
    (h : r.get? name = some plugin) : plugin.name = name :=
  r.filed name plugin h

theorem get?_insert (r : Registry) (plugin : Plugin) (name : String) :
    (r.insert plugin).get? name = if name = plugin.name then some plugin else r.get? name :=
  NameMap.find?_insert r.plugins plugin.name name plugin

/-- The entries of a registry are the entries of its map. -/
theorem entries_eq (r : Registry) : r.entries = r.plugins.entries := by
  unfold entries toList NameMap.values
  rw [List.map_map]
  refine List.map_congr_left (g := id) (fun entry hentry => ?_) |>.trans (List.map_id _)
  have hname := r.filed entry.1 entry.2 (r.plugins.mem_entries_iff.1 hentry)
  simp [hname]

/-! ## Look-up by extension point -/

/-- The plugins whose types inherit from the marked interface of a name, in increasing order of
their own names. The name must be that of a marked interface. -/
def implementing (r : Registry) (catalog : Catalog) (name : String) :
    Except Fault (List Plugin) :=
  match catalog.find? name with
  | none => .error ⟨.unresolvedType, [name, "find_by_interface"]⟩
  | some decl =>
    if decl.isInterface && decl.isMarked then
      .ok (r.toList.filter fun plugin =>
        (catalog.extensionPoints plugin.owner).any (·.name = name))
    else .error ⟨.notAnExtensionPoint, [name]⟩

end Registry

/-- Both registries of one load. -/
structure Registries where
  /-- Which successful load they come from, counted from one; zero before the first. -/
  generation : Nat := 0
  /-- The extension points. -/
  interfaces : Registry := .empty
  /-- The implementations. -/
  implementations : Registry := .empty
deriving DecidableEq

namespace Registries

/-- The registry of one side. -/
def on (registries : Registries) : Side → Registry
  | .interfaces => registries.interfaces
  | .implementations => registries.implementations

/-- The extension points in one line. -/
def interfaceSummary (registries : Registries) : String :=
  "PluginRegistry \x7b side: Interfaces, names: "
    ++ Text.quoteList registries.interfaces.names ++ " \x7d"

/-- The implementations in one line. -/
def implementationSummary (registries : Registries) : String :=
  "PluginImplementationRegistry \x7b count: " ++ toString registries.implementations.size
    ++ ", names: " ++ Text.quoteList registries.implementations.names ++ " \x7d"

end Registries

end PluginDiscovery
