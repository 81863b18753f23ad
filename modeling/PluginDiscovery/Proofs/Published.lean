import PluginDiscovery.Proofs.Session

/-!
# What can be published

Registries file plugins under their names, and a later plugin of a name would silently replace an
earlier one. That no plugin is lost rests on the rules on names: they look at the very lists of
which the registries are made. `Registries.Sound` is what then holds of every plugin that can be
found in a registry. It holds throughout every session, and a load publishes one plugin for each
type that its manifests offer.
-/

namespace PluginDiscovery

/-- What holds of all published plugins. -/
structure Registries.Sound (catalog : Catalog) (registries : Registries) : Prop where
  /-- A plugin is filed under its own name. -/
  filed : ∀ side name plugin, (registries.on side).get? name = some plugin → plugin.name = name
  /-- A plugin is owned by a type of the catalog that links and carries the marker. -/
  owned : ∀ side name plugin,
    (registries.on side).get? name = some plugin → plugin.Owned catalog
  /-- An extension point is owned by an interface. -/
  interfaces : ∀ name plugin,
    registries.interfaces.get? name = some plugin → plugin.owner.isInterface
  /-- An implementation is owned by a concrete class that has an extension point. -/
  implementations : ∀ name plugin, registries.implementations.get? name = some plugin →
    plugin.owner.isConcreteClass ∧ catalog.extensionPoints plugin.owner ≠ []

theorem Registries.sound_empty (catalog : Catalog) : ({} : Registries).Sound catalog where
  filed side name plugin h := by cases side <;> cases h
  owned side name plugin h := by cases side <;> cases h
  interfaces name plugin h := by cases h
  implementations name plugin h := by cases h

namespace Loader

open Coherence.Rule (mem_standard)

variable {l : Loader} {files : Files}

/-- What a load publishes is sound. -/
theorem sound_registriesOf {survey : Survey} (h : (l.dryRun files).outcome = .ok survey)
    (generation : Nat) : (registriesOf generation survey).Sound l.catalog := by
  have hget := get?_of_dryRun h generation
  obtain ⟨-, hholds, rfl⟩ := Discovery.outcome_survey_eq_ok_iff.1 h
  refine ⟨fun side name plugin hplugin => ?_, fun side name plugin hplugin => ?_,
    fun name plugin hplugin => ?_, fun name plugin hplugin => ⟨?_, ?_⟩⟩
  · exact ((hget side name plugin).1 hplugin).2
  · have hmem := ((hget side name plugin).1 hplugin).1
    rw [on_surveyResult] at hmem
    exact Discovery.owned_of_mem_passOf hmem
  · exact hholds _ (mem_standard .interfacesAreInterfaces) plugin
      ((hget .interfaces name plugin).1 hplugin).1
  · exact hholds _ (mem_standard .implementationsAreConcrete) plugin
      ((hget .implementations name plugin).1 hplugin).1
  · exact hholds _ (mem_standard .implementsExtensionPoint) plugin
      ((hget .implementations name plugin).1 hplugin).1

theorem sound_step (l : Loader) (op : Operation) (h : l.published.Sound l.catalog) :
    (l.step op).1.published.Sound (l.step op).1.catalog := by
  have hcatalog : (l.step op).1.catalog = l.catalog :=
    congrArg Discovery.catalog (discovery_step l op)
  rw [hcatalog]
  cases hload : (l.step op).2.isLoad with
  | false => exact published_step_of_not_isLoad hload ▸ h
  | true =>
    obtain ⟨files, survey, hrun, hpublished⟩ := published_step_of_isLoad hload
    exact hpublished ▸ sound_registriesOf hrun _

theorem sound_run (catalog : Catalog) (searchPath : List ModuleRoot) (settings : Settings)
    (ops : List Operation) :
    ((start catalog searchPath settings).run ops).1.published.Sound catalog := by
  have hsound := run_induction (P := fun l => l.published.Sound l.catalog) sound_step
    (start catalog searchPath settings) (Registries.sound_empty catalog) ops
  have hcatalog : ((start catalog searchPath settings).run ops).1.catalog = catalog :=
    congrArg Discovery.catalog (discovery_run _ ops)
  rw [hcatalog] at hsound
  exact hsound

/-- Distinct names keep all plugins apart, so none is lost when they are filed. -/
theorem size_of_dryRun {survey : Survey} (h : (l.dryRun files).outcome = .ok survey)
    (generation : Nat) (side : Side) :
    ((registriesOf generation survey).on side).size = (survey.on side).length := by
  rw [on_registriesOf, Registry.size_ofPlugins, (nodup_names_of_dryRun h side).dedup,
    List.length_map]

/-- A load finds one plugin for each name that is listed and offered. -/
theorem length_of_dryRun {survey : Survey} (h : (l.dryRun files).outcome = .ok survey)
    (side : Side) :
    (survey.on side).length =
      (((l.discovery.listings files side).map (·.typeName)).dedup.filter
        l.catalog.offers).length := by
  obtain ⟨-, -, rfl⟩ := Discovery.outcome_survey_eq_ok_iff.1 h
  have howners := congrArg List.length (Discovery.owner_names_passOf (d := l.discovery) side
    (Listing.firsts [] (l.discovery.listings files side)))
  rw [List.length_map] at howners
  rw [on_surveyResult]
  exact howners.trans ((Listing.perm_names_firsts _).filter _).length_eq

theorem outcome_read_of_dryRun {survey : Survey} (h : (l.dryRun files).outcome = .ok survey)
    (side : Side) :
    (Manifest.read files (l.settings.manifest side) l.searchPath).outcome =
      .ok (l.discovery.listings files side) := by
  obtain ⟨hclear, -, -⟩ := Discovery.outcome_survey_eq_ok_iff.1 h
  exact (hclear side).outcome_read

theorem count_reportOf (generation : Nat) (survey : Survey) (side : Side) :
    (reportOf generation survey).count side = (survey.on side).length := by
  cases side <;> rfl

/-- Whatever is published in a session is sound, and a reload that succeeds loses nothing: on each
side it files as many plugins as it reports, which is the number of distinct names in the manifest
that link and are those of marked types. -/
theorem published_sound_and_complete (catalog : Catalog) (searchPath : List ModuleRoot)
    (settings : Settings) (ops : List Operation) :
    let l := ((start catalog searchPath settings).run ops).1
    l.published.Sound catalog ∧
      ∀ files report, (l.reload files).2.outcome = .ok report → ∀ side,
        ((l.reload files).1.published.on side).size = report.count side ∧
          ∃ listings,
            (Manifest.read files (settings.manifest side) searchPath).outcome = .ok listings ∧
              report.count side =
                ((listings.map (·.typeName)).dedup.filter catalog.offers).length := by
  intro l
  have hdiscovery : l.discovery = (start catalog searchPath settings).discovery :=
    discovery_run _ ops
  have hcatalog : l.catalog = catalog := congrArg Discovery.catalog hdiscovery
  have hpath : l.searchPath = searchPath := congrArg Discovery.searchPath hdiscovery
  have hsettings : l.settings = settings := congrArg Discovery.settings hdiscovery
  refine ⟨sound_run catalog searchPath settings ops, fun files report h side => ?_⟩
  obtain ⟨survey, hrun, rfl⟩ := dryRun_of_reload_ok h
  have hread := outcome_read_of_dryRun hrun side
  have hlength := length_of_dryRun hrun side
  rw [hpath, hsettings] at hread
  rw [hcatalog] at hlength
  rw [(reload_of_ok hrun).1, count_reportOf]
  exact ⟨size_of_dryRun hrun _ side, _, hread, hlength⟩

end Loader

end PluginDiscovery
