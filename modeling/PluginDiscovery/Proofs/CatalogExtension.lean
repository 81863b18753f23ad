import Mathlib
import PluginDiscovery.Proofs.Linking
import PluginDiscovery.Proofs.Lookup

/-!
# More types in the catalog

Registering types under new names never changes what a type that links already comes to. A walk over
its dependencies meets declared names only, so no name that it meets is new; and the search for its
ancestors goes along parents, which are dependencies, so it never meets a new name either
(`inherited_of_complete`). A load all of whose listed types link therefore finds the same plugins,
passes the same check and answers the same look-ups (`reload_over_more_types`). A type that is
skipped for lack of a dependency may link once there are more types, which is why nothing may be
skipped.
-/

namespace PluginDiscovery

namespace Catalog

variable {c c' : Catalog}

/-- Registers one type after the other. -/
def registerAll (c : Catalog) (decls : List TypeDecl) : Catalog := decls.foldl register c

theorem find?_registerAll_of_not_mem {decls : List TypeDecl} {name : String}
    (h : name ∉ decls.map (·.name)) : (c.registerAll decls).find? name = c.find? name := by
  induction decls generalizing c with
  | nil => rfl
  | cons decl decls ih =>
    rw [List.map_cons, List.mem_cons, not_or] at h
    have hrest : ((c.register decl).registerAll decls).find? name =
        (c.register decl).find? name := ih h.2
    have hfirst : (c.register decl).find? name = c.find? name := by
      rw [find?_register, if_neg h.1]
    exact hrest.trans hfirst

/-- What one catalog declares, another one declares alike. -/
def Within (c c' : Catalog) : Prop :=
  ∀ name decl, c.find? name = some decl → c'.find? name = some decl

/-- Types under new names leave those that are there as they are. -/
theorem within_registerAll {decls : List TypeDecl} (h : ∀ decl ∈ decls, c.find? decl.name = none) :
    c.Within (c.registerAll decls) := by
  intro name decl hfind
  have hnew : name ∉ decls.map (·.name) := by
    intro hmem
    obtain ⟨other, hother, rfl⟩ := List.mem_map.1 hmem
    rw [h other hother] at hfind
    cases hfind
  rw [find?_registerAll_of_not_mem hnew]
  exact hfind

namespace Within

theorem reaches (h : c.Within c') {name target : String} (hcomplete : c.Complete name)
    (hpath : Reaches c'.DependsOn name target) : Reaches c.DependsOn name target := by
  induction hpath with
  | refl => exact .refl name
  | @tail middle last _ hstep ih =>
    obtain ⟨decl, hfind⟩ := hcomplete middle ih
    obtain ⟨other, hother, hlast⟩ := hstep
    have hsame : decl = other := Option.some.inj ((h middle decl hfind).symm.trans hother)
    subst hsame
    exact ih.tail ⟨decl, hfind, hlast⟩

theorem complete (h : c.Within c') {name : String} (hcomplete : c.Complete name) :
    c'.Complete name := by
  intro target hpath
  obtain ⟨decl, hfind⟩ := hcomplete target (h.reaches hcomplete hpath)
  exact ⟨decl, h target decl hfind⟩

theorem link (h : c.Within c') {name : String} {decl : TypeDecl} (hlink : c.link name = .ok decl) :
    c'.link name = .ok decl := by
  obtain ⟨hfind, hcomplete⟩ := link_eq_ok_iff.1 hlink
  exact link_eq_ok_iff.2 ⟨h name decl hfind, h.complete hcomplete⟩

/-- Where all names that wait are complete, the search never meets a name that only the larger
catalog declares. -/
theorem inherited_of_complete (h : c.Within c') {seen queue : List String}
    (hcomplete : ∀ name ∈ queue, c.Complete name) :
    c'.inherited seen queue = c.inherited seen queue := by
  induction seen, queue using inherited.induct c with
  | case1 seen => rw [inherited, inherited]
  | case2 seen name queue hseen ih =>
    rw [inherited_cons_of_mem hseen, inherited_cons_of_mem hseen]
    exact ih fun other hother => hcomplete other (List.mem_cons_of_mem _ hother)
  | case3 seen name queue hseen hfind =>
    obtain ⟨decl, hdecl⟩ := (hcomplete name List.mem_cons_self).declared
    rw [hfind] at hdecl
    cases hdecl
  | case4 seen name queue hseen decl hfind _ ih | case5 seen name queue hseen decl hfind _ ih =>
    rw [inherited_cons_of_some hseen hfind, inherited_cons_of_some hseen (h name decl hfind)]
    refine congrArg _ (ih fun other hother => ?_)
    rcases List.mem_append.1 hother with hqueue | hparent
    · exact hcomplete other (List.mem_cons_of_mem _ hqueue)
    · have hname : c.Complete name := hcomplete name List.mem_cons_self
      exact hname.of_mem_dependencies hfind (TypeDecl.mem_dependencies_of_mem_parents hparent)

theorem ancestors (h : c.Within c') {name : String} {decl : TypeDecl}
    (hlink : c.link name = .ok decl) : c'.ancestors decl = c.ancestors decl := by
  obtain ⟨hfind, hcomplete⟩ := link_eq_ok_iff.1 hlink
  refine h.inherited_of_complete fun parent hparent => ?_
  exact hcomplete.of_mem_dependencies hfind (TypeDecl.mem_dependencies_of_mem_parents hparent)

theorem extensionPoints (h : c.Within c') {name : String} {decl : TypeDecl}
    (hlink : c.link name = .ok decl) : c'.extensionPoints decl = c.extensionPoints decl := by
  rw [Catalog.extensionPoints, h.ancestors hlink]
  rfl

end Within

end Catalog

/-! ## One run over two catalogs -/

namespace Discovery

/-- The same run over another catalog. -/
def withCatalog (d : Discovery) (catalog : Catalog) : Discovery := { d with catalog }

variable {d : Discovery} {files : Files} {catalog : Catalog}

/-- Where nothing is skipped, all listed types link. -/
theorem link_of_skipped_eq_nil (hclear : ∀ side, d.Clear files side)
    (hskipped : (d.passResult files .implementations).skipped = []) (side : Side) :
    ∀ listing ∈ d.listings files side, ∃ decl, d.catalog.link listing.typeName = .ok decl := by
  intro listing hlisting
  have hadmits := (hclear side).admitted listing hlisting
  cases side with
  | interfaces => exact hadmits
  | implementations =>
    obtain ⟨decl, hfind⟩ := hadmits
    rcases Catalog.link_of_find?_some hfind with hlink | ⟨missing, hlink⟩
    · exact ⟨decl, hlink⟩
    · -- then the type lacks something and would be reported
      have hlacks : d.catalog.lacks listing.typeName = true := by
        rw [Catalog.lacks, hlink]
      have hlists : d.Lists files .implementations listing.typeName :=
        d.lists_iff_mem.2 (List.mem_map_of_mem hlisting)
      have hmem := mem_skipped_names_iff.2 ⟨hlists, hlacks⟩
      rw [hskipped] at hmem
      cases hmem

theorem clear_withCatalog (h : d.catalog.Within catalog) {side : Side} (hclear : d.Clear files side)
    (hlink : ∀ listing ∈ d.listings files side,
      ∃ decl, d.catalog.link listing.typeName = .ok decl) :
    (d.withCatalog catalog).Clear files side := by
  refine ⟨hclear.readable, fun listing hlisting => ?_⟩
  obtain ⟨decl, hdecl⟩ := hlink listing hlisting
  have hlink' : catalog.link listing.typeName = .ok decl := h.link hdecl
  cases side with
  | interfaces => exact ⟨decl, hlink'⟩
  | implementations => exact ⟨decl, Catalog.find?_of_link hlink'⟩

theorem passResult_withCatalog (h : d.catalog.Within catalog) {side : Side}
    (hlink : ∀ listing ∈ d.listings files side,
      ∃ decl, d.catalog.link listing.typeName = .ok decl) :
    (d.withCatalog catalog).passResult files side = d.passResult files side := by
  have hsame : ∀ listing ∈ Listing.firsts [] (d.listings files side),
      catalog.link listing.typeName = d.catalog.link listing.typeName := by
    intro listing hlisting
    have hname := (Listing.mem_names_firsts.1 (List.mem_map_of_mem hlisting)).1
    obtain ⟨other, hother, hsame⟩ := List.mem_map.1 hname
    obtain ⟨decl, hdecl⟩ := hlink other hother
    rw [← hsame, hdecl]
    exact h.link hdecl
  unfold passResult passOf
  congr 1
  · refine List.filterMap_congr fun listing hlisting => ?_
    have hlisting' := hsame listing hlisting
    simp only [pluginOf?, withCatalog, hlisting']
  · refine List.filterMap_congr fun listing hlisting => ?_
    have hlisting' := hsame listing hlisting
    simp only [skippedOf?, withCatalog, hlisting']

theorem holds_withCatalog (h : d.catalog.Within catalog)
    (hlink : ∀ side, ∀ listing ∈ d.listings files side,
      ∃ decl, d.catalog.link listing.typeName = .ok decl)
    {rule : Coherence.Rule} (hholds : rule.Holds d.catalog (d.candidates files)) :
    rule.Holds catalog ((d.withCatalog catalog).candidates files) := by
  have hcandidates : (d.withCatalog catalog).candidates files = d.candidates files := by
    unfold candidates
    rw [passResult_withCatalog h (hlink _), passResult_withCatalog h (hlink _)]
  rw [hcandidates]
  cases rule with
  | implementsExtensionPoint =>
    intro plugin hplugin
    have hmem : plugin ∈ (d.passResult files .implementations).plugins := hplugin
    have howned : plugin.Owned d.catalog := owned_of_mem_passOf hmem
    rw [h.extensionPoints howned.links]
    exact hholds plugin hplugin
  | _ => exact hholds

/-- Over more types a run that skips nothing finds the same. -/
theorem outcome_survey_withCatalog (h : d.catalog.Within catalog) {survey : Survey}
    (hsurvey : (d.survey files).outcome = .ok survey) (hskipped : survey.skipped = []) :
    ((d.withCatalog catalog).survey files).outcome = .ok survey := by
  obtain ⟨hclear, hholds, rfl⟩ := outcome_survey_eq_ok_iff.1 hsurvey
  have hlink := link_of_skipped_eq_nil hclear hskipped
  refine outcome_survey_eq_ok_iff.2 ⟨fun side => ?_, fun rule hrule => ?_, ?_⟩
  · exact clear_withCatalog h (hclear side) (hlink side)
  · exact holds_withCatalog h hlink (hholds rule hrule)
  · unfold surveyResult
    rw [passResult_withCatalog h (hlink _), passResult_withCatalog h (hlink _)]

end Discovery

/-! ## One load over two catalogs -/

namespace Registry

/-- If the owners of all plugins link, look-ups under declared names are the same over more
types. -/
theorem implementing_of_within {r : Registry} {c c' : Catalog} (h : c.Within c')
    (howned : ∀ plugin ∈ r.toList, plugin.Owned c) {name : String} {decl : TypeDecl}
    (hfind : c.find? name = some decl) : r.implementing c' name = r.implementing c name := by
  have hfilter : (r.toList.filter fun plugin =>
        (c'.extensionPoints plugin.owner).any (·.name = name)) =
      r.toList.filter fun plugin => (c.extensionPoints plugin.owner).any (·.name = name) := by
    refine List.filter_congr fun plugin hplugin => ?_
    rw [h.extensionPoints (howned plugin hplugin).links]
  unfold implementing
  rw [h name decl hfind, hfind, hfilter]

end Registry

namespace Loader

/-- The same loader over another catalog. -/
def withCatalog (l : Loader) (catalog : Catalog) : Loader := { l with catalog }

/-- Let further types be registered under names that were free. Every type that has linked links
still and has the same ancestors and extension points, in the same order. A load that succeeds and
skips nothing succeeds over the larger catalog too, with the same report; it publishes the same
registries, and look-ups under the names that were declared before answer alike. -/
theorem reload_over_more_types (l : Loader) (files : Files) (decls : List TypeDecl)
    (h : ∀ decl ∈ decls, l.catalog.find? decl.name = none) :
    let wide := l.withCatalog (l.catalog.registerAll decls)
    (∀ name decl, l.catalog.link name = .ok decl →
      wide.catalog.link name = .ok decl ∧
        wide.catalog.ancestors decl = l.catalog.ancestors decl ∧
        wide.catalog.extensionPoints decl = l.catalog.extensionPoints decl) ∧
      ∀ report, (l.reload files).2.outcome = .ok report → report.skipped = [] →
        (wide.reload files).2.outcome = .ok report ∧
          (wide.reload files).1.published = (l.reload files).1.published ∧
          ∀ name decl, l.catalog.find? name = some decl →
            (wide.reload files).1.implementing name = (l.reload files).1.implementing name := by
  intro wide
  have hwithin : l.catalog.Within wide.catalog := Catalog.within_registerAll h
  refine ⟨fun name decl hlink => ?_, fun report hreport hskipped => ?_⟩
  · exact ⟨hwithin.link hlink, hwithin.ancestors hlink, hwithin.extensionPoints hlink⟩
  · obtain ⟨survey, hsurvey, rfl⟩ := dryRun_of_reload_ok hreport
    have hwide : (wide.dryRun files).outcome = .ok survey :=
      Discovery.outcome_survey_withCatalog hwithin hsurvey hskipped
    have hpublished : (wide.reload files).1.published = (l.reload files).1.published := by
      rw [(reload_of_ok hwide).1, (reload_of_ok hsurvey).1]
      rfl
    refine ⟨(reload_of_ok hwide).2, hpublished, fun name decl hfind => ?_⟩
    have hsound : (l.reload files).1.published.Sound l.catalog := by
      rw [(reload_of_ok hsurvey).1]
      exact sound_registriesOf hsurvey _
    have hcatalog : (l.reload files).1.catalog = l.catalog := by
      rw [(reload_of_ok hsurvey).1]
    have hcatalog' : (wide.reload files).1.catalog = wide.catalog := by
      rw [(reload_of_ok hwide).1]
    rw [implementing, implementing, hpublished, hcatalog, hcatalog']
    refine Registry.implementing_of_within hwithin (fun plugin hplugin => ?_) hfind
    exact hsound.owned .implementations plugin.name plugin (Registry.mem_toList_iff.1 hplugin)

/-- A loader that finds an extension point and a class that implements it through an interface
without a marker. The two interfaces extend each other. -/
def small : Loader where
  catalog := .ofList [
    { name := "acme.I", kind := .interface, interfaces := ["acme.J"],
      marker := some { name := "i" } },
    { name := "acme.J", kind := .interface, interfaces := ["acme.I"] },
    { name := "acme.A", kind := .concreteClass, interfaces := ["acme.J"],
      marker := some { name := "a" } }]
  searchPath := [.embedded "e" (.ofList
    [("interfaces", "acme.I\n"), ("implementations", "acme.A\n")])]
  settings := ⟨"interfaces", "implementations", "spindle."⟩

/-- Types under names that `small` does not declare; one of them does not link. -/
def moreTypes : List TypeDecl := [
  { name := "acme.K", kind := .interface, interfaces := ["acme.I"],
    marker := some { name := "k" } },
  { name := "acme.B", kind := .concreteClass, superclass := some "acme.A",
    requires := ["acme.X"], marker := some { name := "b" } }]

/-- The larger catalog changes neither the load nor what is found under `acme.I`. -/
theorem reload_small_over_more_types :
    let wide := small.withCatalog (small.catalog.registerAll moreTypes)
    (∀ decl ∈ moreTypes, small.catalog.find? decl.name = none) ∧
      ∃ report, (small.reload {}).2.outcome = .ok report ∧ report.skipped = [] ∧
        (wide.reload {}).2.outcome = .ok report ∧
        (wide.reload {}).1.implementing "acme.I" = (small.reload {}).1.implementing "acme.I" := by
  intro wide
  have hall : moreTypes.all (fun decl => (small.catalog.find? decl.name).isNone) = true := by cbv
  have hnew : ∀ decl ∈ moreTypes, small.catalog.find? decl.name = none := by
    intro decl hdecl
    exact Option.isNone_iff_eq_none.1 (List.all_eq_true.1 hall decl hdecl)
  have hfaults : ∀ side, small.discovery.passFault? {} side = none := by
    intro side
    cases side <;> cbv
  have hviolations : Coherence.violations small.catalog small.discovery.rules
      (small.discovery.candidates {}) = [] := by cbv
  have hskipped : (small.discovery.passResult {} .implementations).skipped = [] := by cbv
  have hreload := (reload_of_ok (Discovery.outcome_survey_of_faultless hfaults hviolations)).2
  have hfind : (small.catalog.find? "acme.I").isSome = true := by cbv
  obtain ⟨decl, hdecl⟩ := Option.isSome_iff_exists.1 hfind
  obtain ⟨-, hsame⟩ := reload_over_more_types small {} moreTypes hnew
  obtain ⟨hwide, -, hfound⟩ := hsame _ hreload hskipped
  exact ⟨hnew, _, hreload, hskipped, hwide, hfound "acme.I" decl hdecl⟩

end Loader

end PluginDiscovery
