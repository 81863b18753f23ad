import PluginDiscovery.Config.Decode
import PluginDiscovery.Config.Environment
import PluginDiscovery.Config.Validation
import PluginDiscovery.Event
import PluginDiscovery.Toml.Document

/-!
# Loading a configuration

A configuration is built up in layers: the defaults, files, and the environment, each over the one
before. A file that is no TOML document, or whose values cannot be settings, makes loading fail, and
then the failures of all such files are reported.

The standard layers are the file of the system, that of the user, that of the working folder and the
environment. If the working folder has no file, the closest folder above it that has one gives its
file instead. Diagnostics show only the files of the system, the user and the working folder.
-/

namespace PluginDiscovery.Config

/-- A layer of settings, or why it cannot be read. -/
abbrev Layer := Except Failure Setting

/-- The layer of a text. -/
def layerOf (origin : Origin) (text : String) : Layer :=
  match Toml.document? text >>= Setting.entriesOfToml? origin with
  | some entries => .ok (.table origin entries)
  | none => .error { cause := .message syntaxErrorText, origin := some origin }

/-- The layer of a file. -/
def fileLayer (source : Source) : Layer := layerOf (.file source.path) source.text

/-- Merges layers over the defaults and reads the result. The failures are a chain: those of all
layers that cannot be read or else the one of reading the settings. -/
def ofLayers (layers : List Layer) : Except (List Failure) Config :=
  let failures := layers.filterMap fun | .error failure => some failure | .ok _ => none
  if failures.isEmpty then
    let settings := layers.filterMap fun | .ok setting => some setting | .error _ => none
    match settings.foldl Setting.merge (toSetting {}) with
    | .table _ entries => (ofEntries entries).mapError fun failure => [failure]
    | setting => .error [mismatch [] setting "struct SpindleConfig"]
  else .error failures

/-- The name of a text that is in no file. -/
def inlineName : String := "<inline>"

/-- Loads a configuration from a text alone. -/
def loadText (text : String) : Except (List Diagnostic) Config :=
  (ofLayers [layerOf (.named "TOML source string") text]).mapError
    (Diagnostic.ofFailures [{ path := inlineName, text }])

/-- Loads a configuration from a file, if it is there, and the environment. -/
def loadFile (file : Option Source) (environment : List (String × String)) :
    Except (List Diagnostic) Config :=
  (ofLayers (file.toList.map fileLayer ++ [.ok (ofEnvironment environment)])).mapError
    (Diagnostic.ofFailures file.toList)

/-- Where configuration files are. -/
structure Hierarchy where
  /-- The file of the system. -/
  system : Option Source := none
  /-- The file of the user. -/
  user : Option Source := none
  /-- The files of the working folder and of the folders above it, nearest first. -/
  folders : List (Option Source) := []

namespace Hierarchy

/-- The files that are merged, in order. -/
def merged (h : Hierarchy) : List Source :=
  h.system.toList ++ h.user.toList ++ (h.folders.findSome? id).toList

/-- The files that diagnostics can show. -/
def shown (h : Hierarchy) : List Source :=
  h.system.toList ++ h.user.toList ++ (h.folders.head?.bind id).toList

/-- Loads the standard layers. -/
def load (h : Hierarchy) (environment : List (String × String)) : Except (List Diagnostic) Config :=
  (ofLayers (h.merged.map fileLayer ++ [.ok (ofEnvironment environment)])).mapError
    (Diagnostic.ofFailures h.shown)

/-- Loads the standard layers and validates the result. -/
def loadValid (h : Hierarchy) (environment : List (String × String)) :
    Except (List Diagnostic) Config :=
  h.load environment >>= validate

/-- The events of loading and validating: one if a valid configuration has been loaded. -/
def events (h : Hierarchy) (environment : List (String × String)) : List Event :=
  match h.loadValid environment with
  | .ok config => [.configured config.discovery.searchPath.length]
  | .error _ => []

end Hierarchy

/-- Loads a configuration from a text alone and validates it. -/
def loadValidText (text : String) : Except (List Diagnostic) Config :=
  loadText text >>= validate

end PluginDiscovery.Config
