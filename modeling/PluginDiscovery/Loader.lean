import PluginDiscovery.Discovery.Basic
import PluginDiscovery.NoteLog
import PluginDiscovery.Registry

/-!
# The loader

A loader owns the published registries and replaces them by reloading. A reload either succeeds, and
then publishes both registries anew under the next generation, or it fails and leaves them as they
were. Either way the notes of the loader are then those of this attempt.
-/

namespace PluginDiscovery

/-- What a successful reload reports. -/
structure LoadReport where
  /-- The generation of the registries it has published. -/
  generation : Nat
  /-- The number of extension points it has found. -/
  interfaces : Nat
  /-- The number of implementations it has found. -/
  implementations : Nat
  /-- A fault for each implementation that was skipped. -/
  skipped : List Fault
deriving DecidableEq

/-- A loader: where it looks, and what it has published and noted. -/
structure Loader where
  /-- The declared types. -/
  catalog : Catalog
  /-- The roots that may hold manifests. -/
  searchPath : List ModuleRoot
  /-- The settings. -/
  settings : Settings
  /-- The registries of the last successful load. -/
  published : Registries := {}
  /-- The notes of the last attempt. -/
  notes : NoteLog := .empty

namespace Loader

/-- The loader of a configuration, which searches the folders that the configuration names. -/
def ofConfig (catalog : Catalog) (config : Config) : Loader where
  catalog := catalog
  searchPath := config.discovery.searchPath.map .folder
  settings := .ofConfig config.discovery

/-- The number of successful loads. -/
def generation (l : Loader) : Nat := l.published.generation

/-- Whether any load has succeeded. -/
def isLoaded (l : Loader) : Bool := l.generation ≠ 0

/-- The discovery run that a load makes. -/
def discovery (l : Loader) : Discovery where
  catalog := l.catalog
  searchPath := l.searchPath
  settings := l.settings

/-- Discovers without publishing anything. -/
def dryRun (l : Loader) (files : Files) : Traced FaultReport Survey := l.discovery.survey files

/-- The registries of a survey. -/
def registriesOf (generation : Nat) (survey : Survey) : Registries where
  generation := generation
  interfaces := .ofPlugins survey.interfaces
  implementations := .ofPlugins survey.implementations

/-- What a successful reload reports of a survey. -/
def reportOf (generation : Nat) (survey : Survey) : LoadReport where
  generation := generation
  interfaces := survey.interfaces.length
  implementations := survey.implementations.length
  skipped := survey.skipped

/-- Discovers anew and publishes the result, if there is one. -/
def reload (l : Loader) (files : Files) : Loader × Traced FaultReport LoadReport :=
  let run := l.dryRun files
  let notes := NoteLog.ofEvents run.events
  match run.outcome with
  | .error report =>
    ({ l with notes }, ⟨run.events ++ [.loadFailed report], .error report⟩)
  | .ok survey =>
    let report := reportOf (l.generation + 1) survey
    ({ l with published := registriesOf (l.generation + 1) survey, notes },
      ⟨run.events ++
        [.loaded report.generation report.interfaces report.implementations report.skipped.length],
        .ok report⟩)

/-- The published implementations of an extension point. -/
def implementing (l : Loader) (name : String) : Except Fault (List Plugin) :=
  l.published.implementations.implementing l.catalog name

/-- The word for the state of a loader. -/
def state (l : Loader) : String := if l.isLoaded then "loaded" else "unloaded"

/-- The loader in one line. -/
def summary (l : Loader) : String :=
  let state := if l.isLoaded then "Loaded" else "Unloaded"
  "PluginFactory \x7b state: " ++ state ++ ", generation: " ++ toString l.generation
    ++ ", interfaces: " ++ toString l.published.interfaces.size
    ++ ", implementations: " ++ toString l.published.implementations.size ++ " \x7d"

end Loader

end PluginDiscovery
