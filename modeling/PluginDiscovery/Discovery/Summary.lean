import PluginDiscovery.Discovery.Basic
import PluginDiscovery.Text.Quoted

/-!
# Discovery in one line

How a set of rules and a discovery run show themselves to whoever inspects a running program.
-/

namespace PluginDiscovery

/-- A set of rules in one line. -/
def Coherence.summary (rules : List Coherence.Rule) : String :=
  let names := Text.quoteList (rules.map (·.label))
  "CoherenceChecker \x7b rules: " ++ names ++ " \x7d"

/-- Settings in one line. -/
def Settings.summary (settings : Settings) : String :=
  let interfaces := Text.quote settings.interfaceManifest
  let implementations := Text.quote settings.implementationManifest
  let standard := Text.quote settings.standardNamespace
  "DiscoverySettings \x7b interface_manifest: " ++ interfaces ++ ", implementation_manifest: "
    ++ implementations ++ ", standard_namespace: " ++ standard ++ " \x7d"

/-- A discovery run in one line. -/
def Discovery.summary (d : Discovery) : String :=
  "PluginInspector \x7b settings: " ++ d.settings.summary ++ ", search_path: "
    ++ toString d.searchPath.length ++ ", checker: " ++ Coherence.summary d.rules ++ " \x7d"

end PluginDiscovery
