import PluginDiscovery.Coherence
import PluginDiscovery.Config.Basic
import PluginDiscovery.Manifest

/-!
# Discovery

Discovery reads the two manifests, resolves the types that they list and turns the marked ones into
plugins; then it checks that the plugins are coherent. Each manifest is one pass. In a pass a name
counts where it is listed first, a type without a marker is passed over, and a name that cannot be
resolved ends the load. There is one exception: an implementation that is declared, but links
against something that is not, is skipped.
-/

namespace PluginDiscovery

/-- What a discovery run depends on besides the catalog and the search path. -/
structure Settings where
  /-- The path of the extension point manifest in every root. -/
  interfaceManifest : String
  /-- The path of the implementation manifest in every root. -/
  implementationManifest : String
  /-- What the names of standard types start with. -/
  standardNamespace : String
deriving DecidableEq, Repr

namespace Settings

/-- The settings that a configuration asks for. -/
def ofConfig (config : Config.Discovery) : Settings where
  interfaceManifest := config.interfaceManifest
  implementationManifest := config.implementationManifest
  standardNamespace := config.standardNamespace

/-- The settings of the default configuration. -/
def standard : Settings := ofConfig {}

/-- The default settings with another standard namespace. -/
def withNamespace (standardNamespace : String) : Settings := { standard with standardNamespace }

/-- The manifest of one side. -/
def manifest (settings : Settings) : Side → String
  | .interfaces => settings.interfaceManifest
  | .implementations => settings.implementationManifest

end Settings

/-- What a pass over one manifest finds. -/
structure Pass where
  /-- The plugins, in the order in which their types are first listed. -/
  plugins : List Plugin := []
  /-- A fault for each implementation that was skipped. -/
  skipped : List Fault := []
deriving DecidableEq

/-- What both passes find, once the plugins are known to be coherent. -/
structure Survey where
  /-- The extension points. -/
  interfaces : List Plugin
  /-- The implementations. -/
  implementations : List Plugin
  /-- A fault for each implementation that was skipped. -/
  skipped : List Fault
deriving DecidableEq

/-- A discovery run that is ready to start. -/
structure Discovery where
  /-- The declared types. -/
  catalog : Catalog
  /-- The roots that may hold manifests. -/
  searchPath : List ModuleRoot
  /-- The settings. -/
  settings : Settings
  /-- The rules that plugins must keep. -/
  rules : List Coherence.Rule := Coherence.Rule.standard

namespace Discovery

/-- The fault that a listed name cannot be resolved. -/
def unresolved (listing : Listing) (error : Catalog.LinkError) : Fault :=
  ⟨.unresolvedType, [listing.typeName, listing.position, error.message]⟩

/-- The fault that a listed implementation is skipped. -/
def skippedFor (listing : Listing) (missing : String) : Fault :=
  ⟨.missingDependency, [listing.typeName, listing.position, missing]⟩

/-- Goes through listings, given the names that have been listed before. -/
def scan (d : Discovery) (side : Side) (seen : List String) :
    List Listing → Traced FaultReport Pass
  | [] => return {}
  | listing :: rest => do
    let name := listing.typeName
    if name ∈ seen then
      .note s!"entry {name} at {listing.position} already listed, ignoring"
      d.scan side seen rest
    else
      match d.catalog.link name, side with
      | .error (.missingDependency _ missing), .implementations =>
        let fault := skippedFor listing missing
        .warn fault.body
        let pass ← d.scan side (name :: seen) rest
        return { pass with skipped := fault :: pass.skipped }
      | .error error, _ => .fail (.fatal (unresolved listing error))
      | .ok decl, _ =>
        match Plugin.ofDecl? d.settings.standardNamespace decl with
        | some plugin =>
          let pass ← d.scan side (name :: seen) rest
          return { pass with plugins := plugin :: pass.plugins }
        | none =>
          .note s!"entry {name} at {listing.position} carries no plugin marker, ignoring"
          d.scan side (name :: seen) rest

/-- The pass over the manifest of one side. -/
def pass (d : Discovery) (files : Files) (side : Side) : Traced FaultReport Pass := do
  let listings ← (Manifest.read files (d.settings.manifest side) d.searchPath).mapError .fatal
  d.scan side [] listings

/-- Checks that candidates are coherent. -/
def check (d : Discovery) (candidates : Candidates) : Traced FaultReport Unit :=
  Coherence.check d.catalog d.rules candidates

/-- Both passes and the check. -/
def survey (d : Discovery) (files : Files) : Traced FaultReport Survey := do
  let interfaces ← d.pass files .interfaces
  let implementations ← d.pass files .implementations
  d.check { interfaces := interfaces.plugins, implementations := implementations.plugins }
  return {
    interfaces := interfaces.plugins
    implementations := implementations.plugins
    skipped := implementations.skipped
  }

end Discovery

end PluginDiscovery
