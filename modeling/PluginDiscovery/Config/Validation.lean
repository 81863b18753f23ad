import PluginDiscovery.Config.Basic
import PluginDiscovery.Config.Diagnostic
import PluginDiscovery.Path

/-!
# Validation

A configuration that has been read may still make no sense. Validation lists everything that is
wrong with it: manifest paths must be relative, must not be blank and must differ, the standard
namespace and the log filter must not be blank, and no root of the search path may be empty.
-/

namespace PluginDiscovery.Config

/-- Whether a text holds nothing but blanks. -/
def isBlankText (text : String) : Bool := (Text.trim text).isEmpty

/-- What is wrong with the path of one manifest. -/
def manifestProblems (key path : String) : List String :=
  if isBlankText path then [s!"{key} must not be empty"]
  else if Path.isAbsolute path then
    [s!"{key} must be relative to the search path roots, got `{path}`"]
  else []

/-- The problem that the manifest paths are the same, blanks at their ends apart. -/
def overlapProblems (d : Discovery) : List String :=
  if !isBlankText d.interfaceManifest
      && Text.trim d.interfaceManifest = Text.trim d.implementationManifest then
    let path := d.interfaceManifest
    ["discovery.interface_manifest and discovery.implementation_manifest must differ, "
      ++ s!"both are `{path}`"]
  else []

/-- The problem that a text is blank. -/
def blankProblems (key text : String) : List String :=
  if isBlankText text then [s!"{key} must not be empty"] else []

/-- The problem that a root is empty, once for each such root. -/
def rootProblems (roots : List String) : List String :=
  (roots.filter (·.isEmpty)).map fun _ => "discovery.search_path entries must not be empty"

/-- Everything that is wrong with a configuration. -/
def problems (config : Config) : List String :=
  let d := config.discovery
  manifestProblems "discovery.interface_manifest" d.interfaceManifest
    ++ manifestProblems "discovery.implementation_manifest" d.implementationManifest
    ++ overlapProblems d
    ++ blankProblems "discovery.standard_namespace" d.standardNamespace
    ++ rootProblems d.searchPath
    ++ blankProblems "logging.filter" config.logging.filter

/-- The configuration, if nothing is wrong with it. -/
def validate (config : Config) : Except (List Diagnostic) Config :=
  if (problems config).isEmpty then .ok config
  else .error ((problems config).map .invalid)

end PluginDiscovery.Config
