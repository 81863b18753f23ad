/-!
# The configuration

A configuration says where manifests are, which folders are searched for them, which types count as
standard, and what is logged. Every part has a default.
-/

namespace PluginDiscovery.Config

/-- Where manifests are looked for and how plugins are classified. -/
structure Discovery where
  /-- The path of the extension point manifest in every root of the search path. -/
  interfaceManifest : String := "META-INF/spindle/extension-points"
  /-- The path of the implementation manifest in every root of the search path. -/
  implementationManifest : String := "META-INF/spindle/implementations"
  /-- The folders to search, in order. -/
  searchPath : List String := []
  /-- What the names of standard types start with. -/
  standardNamespace : String := "spindle."
deriving DecidableEq, Repr

/-- What is logged. -/
structure Logging where
  /-- The directive that selects the messages. -/
  filter : String := "spindle=info,warn"
deriving DecidableEq, Repr

end PluginDiscovery.Config

namespace PluginDiscovery

/-- A whole configuration. -/
structure Config where
  /-- How plugins are discovered. -/
  discovery : Config.Discovery := {}
  /-- What is logged. -/
  logging : Config.Logging := {}
deriving DecidableEq, Repr

end PluginDiscovery
