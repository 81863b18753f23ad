import PluginDiscovery.Event
import PluginDiscovery.Plugin
import PluginDiscovery.Traced
import PluginDiscovery.Types.Catalog

/-!
# Coherence

Declarations are coherent when extension points are interfaces, implementations are concrete
classes, names are unique on each side, and every implementation inherits from a marked interface.
Each condition is a rule that looks at all candidates and lists its violations. A check runs every
rule and reports all violations together; it never stops at the first one.
-/

namespace PluginDiscovery

/-- The two sides of a registry. -/
inductive Side where
  /-- Extension points. -/
  | interfaces
  /-- Implementations. -/
  | implementations
deriving DecidableEq, Repr

/-- The plugins that a load has found, before they are checked. -/
structure Candidates where
  /-- The extension points, in the order of the manifest. -/
  interfaces : List Plugin
  /-- The implementations, in the order of the manifest. -/
  implementations : List Plugin

/-- The candidates of one side. -/
def Candidates.on (candidates : Candidates) : Side → List Plugin
  | .interfaces => candidates.interfaces
  | .implementations => candidates.implementations

namespace Coherence

/-- A rule of coherence. -/
inductive Rule where
  /-- Extension points are interfaces. -/
  | interfacesAreInterfaces
  /-- Implementations are concrete classes. -/
  | implementationsAreConcrete
  /-- Names are unique on one side. -/
  | uniqueNames (side : Side)
  /-- Implementations inherit from a marked interface. -/
  | implementsExtensionPoint
deriving DecidableEq, Repr

namespace Rule

/-- The standard rules, in order. -/
def standard : List Rule :=
  [interfacesAreInterfaces, implementationsAreConcrete, uniqueNames .interfaces,
    uniqueNames .implementations, implementsExtensionPoint]

/-- The name of a rule. -/
def label : Rule → String
  | interfacesAreInterfaces => "interfaces-are-interfaces"
  | implementationsAreConcrete => "implementations-are-concrete"
  | uniqueNames .interfaces => "unique-interface-names"
  | uniqueNames .implementations => "unique-implementation-names"
  | implementsExtensionPoint => "implements-marked-interface"

/-- The rule with this name. -/
def ofLabel? (text : String) : Option Rule := standard.find? fun rule => rule.label = text

/-- The fault that a plugin has: its type and its name tell which plugin it is. -/
def faultOf (code : FaultCode) (plugin : Plugin) : Fault :=
  ⟨code, [plugin.owner.name, plugin.name]⟩

/-- The names of the types that declare each name, in the order of the plugins. -/
def owners (plugins : List Plugin) : NameMap (List String) :=
  plugins.foldl
    (fun m plugin =>
      m.insert plugin.name ((m.find? plugin.name).getD [] ++ [plugin.owner.name]))
    ∅

/-- One fault for each name that several plugins have. -/
def repeatedNames (plugins : List Plugin) : List Fault :=
  (owners plugins).entries.filterMap fun (name, types) =>
    if 1 < types.length then some ⟨.nameNotUnique, name :: types⟩ else none

/-- The violations of a rule. -/
def violations (catalog : Catalog) (candidates : Candidates) : Rule → List Fault
  | interfacesAreInterfaces =>
    (candidates.interfaces.filter fun plugin => !plugin.owner.isInterface).map
      (faultOf .notAnInterface)
  | implementationsAreConcrete =>
    (candidates.implementations.filter fun plugin => !plugin.owner.isConcreteClass).map
      (faultOf .notAConcreteClass)
  | uniqueNames side => repeatedNames (candidates.on side)
  | implementsExtensionPoint =>
    (candidates.implementations.filter fun plugin =>
      (catalog.extensionPoints plugin.owner).isEmpty).map (faultOf .noExtensionPoint)

end Rule

/-- The violations of all rules, in the order of the rules. -/
def violations (catalog : Catalog) (rules : List Rule) (candidates : Candidates) : List Fault :=
  rules.flatMap (Rule.violations catalog candidates)

/-- The events of a check: one for each rule that is violated. -/
def events (catalog : Catalog) (rules : List Rule) (candidates : Candidates) : List Event :=
  rules.filterMap fun rule =>
    match (rule.violations catalog candidates).length with
    | 0 => none
    | count => some (.ruleViolated rule.label count)

/-- Checks the candidates; if any rule is violated, all violations are reported. -/
def check (catalog : Catalog) (rules : List Rule) (candidates : Candidates) :
    Traced FaultReport Unit where
  events := events catalog rules candidates
  outcome :=
    let found := violations catalog rules candidates
    if found.isEmpty then .ok () else .error (.declarations found)

end Coherence

end PluginDiscovery
