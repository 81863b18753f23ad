import PluginDiscovery.Config.Load
import PluginDiscovery.Discovery.Summary
import PluginDiscovery.Json.Document
import PluginDiscovery.ModuleTree
import PluginDiscovery.Samples
import PluginDiscovery.Types.Json
import PluginDiscovery.Proofs.Coherence
import PluginDiscovery.Proofs.Reading
import PluginDiscovery.Proofs.Passes
import PluginDiscovery.Proofs.Verdict
import PluginDiscovery.Proofs.Registry
import PluginDiscovery.Proofs.Session
import PluginDiscovery.Proofs.Published
import PluginDiscovery.Proofs.Reports
import PluginDiscovery.Proofs.Ancestors
import PluginDiscovery.Proofs.Lookup
import PluginDiscovery.Proofs.ListedNames
import PluginDiscovery.Proofs.Violations
import PluginDiscovery.Proofs.Inert
import PluginDiscovery.Proofs.CatalogExtension
import PluginDiscovery.Proofs.Notes
import PluginDiscovery.Proofs.Details
import PluginDiscovery.Proofs.DryRun
import PluginDiscovery.Proofs.Bytes
import PluginDiscovery.Proofs.KeyPosition
import PluginDiscovery.Proofs.Lines
import PluginDiscovery.Proofs.Diagnostics
import PluginDiscovery.Proofs.ManifestText
import PluginDiscovery.Proofs.Merging
import PluginDiscovery.Proofs.Decoding
import PluginDiscovery.Proofs.NamedImplementations
import PluginDiscovery.Proofs.Precedence
import PluginDiscovery.Proofs.AncestorSearch
import PluginDiscovery.Proofs.Levels
import PluginDiscovery.Proofs.Preorder
import PluginDiscovery.Proofs.ManifestLines
import PluginDiscovery.Proofs.Classification
import PluginDiscovery.Proofs.Passage
import PluginDiscovery.Proofs.Folders
import PluginDiscovery.Proofs.ModuleTree
import PluginDiscovery.Proofs.KeySearch
import PluginDiscovery.Proofs.Tables
import PluginDiscovery.Proofs.Suggestion
import PluginDiscovery.Proofs.Origins
import PluginDiscovery.Proofs.Labels
import PluginDiscovery.Proofs.Validation
import PluginDiscovery.Proofs.FaultOrder
import PluginDiscovery.Proofs.ManifestPaths
import PluginDiscovery.Proofs.TypeJson
