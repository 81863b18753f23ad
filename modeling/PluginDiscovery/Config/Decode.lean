import PluginDiscovery.Config.Basic
import PluginDiscovery.Config.Setting

/-!
# Reading a configuration

Merged settings are read into a configuration strictly: keys are visited in increasing order, and
the first one that is not known, or whose value is of the wrong type, is the failure. What is not
set has its default. A section may also be given as a list of its values in order, which may end
early; what it holds beyond the last one is ignored.
-/

namespace PluginDiscovery.Config

/-- The failure that a setting is of the wrong type. -/
def mismatch (path : List String) (setting : Setting) (expected : String) : Failure where
  cause := .invalidType setting.found expected
  path := path
  origin := some setting.origin

/-- The failure that a key is not known. -/
def unknownKey (path : List String) (key : String) (known : List String) (setting : Setting) :
    Failure where
  cause := .unknownKey key known
  path := path ++ [key]
  origin := some setting.origin

/-- Reads a text. -/
def readText (expected : String) (path : List String) : Setting → Except Failure String
  | .scalar _ (.text value) => .ok value
  | setting => .error (mismatch path setting expected)

/-- Reads a list of paths. -/
def readPaths (path : List String) : Setting → Except Failure (List String)
  | .list _ items =>
    items.zipIdx.mapM fun (item, index) => readText "path string" (path ++ [toString index]) item
  | setting => .error (mismatch path setting "a sequence")

namespace Discovery

/-- The keys of the section. -/
def keys : List String :=
  ["interface_manifest", "implementation_manifest", "search_path", "standard_namespace"]

/-- The path of a key of the section. -/
def pathOf (key : String) : List String := ["discovery", key]

/-- Reads one key. -/
def readKey (d : Discovery) (entry : String × Setting) : Except Failure Discovery :=
  let (key, setting) := entry
  let text := readText "a string" (pathOf key) setting
  match key with
  | "interface_manifest" => return { d with interfaceManifest := ← text }
  | "implementation_manifest" => return { d with implementationManifest := ← text }
  | "search_path" => return { d with searchPath := ← readPaths (pathOf key) setting }
  | "standard_namespace" => return { d with standardNamespace := ← text }
  | _ => .error (unknownKey ["discovery"] key keys setting)

/-- Reads one value of the section given as a list. -/
def readPlace (d : Discovery) (item : Setting × Nat) : Except Failure Discovery :=
  let (setting, index) := item
  let path := pathOf (toString index)
  match index with
  | 0 => return { d with interfaceManifest := ← readText "a string" path setting }
  | 1 => return { d with implementationManifest := ← readText "a string" path setting }
  | 2 => return { d with searchPath := ← readPaths path setting }
  | 3 => return { d with standardNamespace := ← readText "a string" path setting }
  | _ => return d

/-- Reads the section. -/
def read : Setting → Except Failure Discovery
  | .table _ entries => entries.foldlM readKey {}
  | .list _ items => items.zipIdx.foldlM readPlace {}
  | setting => .error (mismatch ["discovery"] setting "struct DiscoveryConfig")

end Discovery

namespace Logging

/-- The keys of the section. -/
def keys : List String := ["filter"]

/-- Reads one key. -/
def readKey (l : Logging) (entry : String × Setting) : Except Failure Logging :=
  let (key, setting) := entry
  match key with
  | "filter" => return { l with filter := ← readText "a string" ["logging", key] setting }
  | _ => .error (unknownKey ["logging"] key keys setting)

/-- Reads one value of the section given as a list. -/
def readPlace (l : Logging) (item : Setting × Nat) : Except Failure Logging :=
  let (setting, index) := item
  match index with
  | 0 => return { l with filter := ← readText "a string" ["logging", toString index] setting }
  | _ => return l

/-- Reads the section. -/
def read : Setting → Except Failure Logging
  | .table _ entries => entries.foldlM readKey {}
  | .list _ items => items.zipIdx.foldlM readPlace {}
  | setting => .error (mismatch ["logging"] setting "struct LoggingConfig")

end Logging

/-- The sections of a configuration. -/
def sections : List String := ["discovery", "logging"]

/-- Reads one section. -/
def readSection (config : Config) (entry : String × Setting) : Except Failure Config :=
  let (key, setting) := entry
  match key with
  | "discovery" => return { config with discovery := ← Discovery.read setting }
  | "logging" => return { config with logging := ← Logging.read setting }
  | _ => .error (unknownKey [] key sections setting)

/-- Reads a configuration from the entries of a table. -/
def ofEntries (entries : List (String × Setting)) : Except Failure Config :=
  entries.foldlM readSection {}

/-! ## The defaults as settings -/

/-- Where the defaults come from. -/
def defaultsOrigin : Origin := .named "defaults"

/-- A text as a default. -/
def defaultText (value : String) : Setting := .scalar defaultsOrigin (.text value)

/-- The section of a configuration as settings. -/
def Discovery.toSetting (d : Discovery) : Setting :=
  .table defaultsOrigin
    [("implementation_manifest", defaultText d.implementationManifest),
      ("interface_manifest", defaultText d.interfaceManifest),
      ("search_path", .list defaultsOrigin (d.searchPath.map defaultText)),
      ("standard_namespace", defaultText d.standardNamespace)]

/-- The section of a configuration as settings. -/
def Logging.toSetting (l : Logging) : Setting :=
  .table defaultsOrigin [("filter", defaultText l.filter)]

/-- A configuration as settings. -/
def toSetting (config : Config) : Setting :=
  .table defaultsOrigin
    [("discovery", config.discovery.toSetting), ("logging", config.logging.toSetting)]

end PluginDiscovery.Config
