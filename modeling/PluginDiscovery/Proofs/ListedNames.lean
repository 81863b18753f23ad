import Mathlib
import PluginDiscovery.Proofs.Session

/-!
# Loads that list the same names

Two loads may find their manifests in quite different places, cut into other fragments, with the
lines in another order, repeated, or with other blanks around them. If the catalog and the settings
are the same, all fragments can be read and the same names are listed, then both loads end alike
(`reload_by_listed_names`). The reason is that either pass looks at each listed name once, so what
both loads find is the same up to its order (`SameNames.perm_plugins`), and the rules do not look at
the order. Only which fault is reported first and in which order owners are named may differ.
-/

namespace PluginDiscovery

/-! ## What does not depend on the order of plugins -/

theorem Coherence.Rule.Holds.of_perm {catalog : Catalog} {candidates candidates' : Candidates}
    (hperm : ∀ side, (candidates.on side).Perm (candidates'.on side)) {rule : Coherence.Rule}
    (h : rule.Holds catalog candidates) : rule.Holds catalog candidates' := by
  have hinterfaces : ∀ plugin ∈ candidates'.interfaces, plugin ∈ candidates.interfaces :=
    fun _ hmem => (hperm .interfaces).mem_iff.2 hmem
  have himplementations :
      ∀ plugin ∈ candidates'.implementations, plugin ∈ candidates.implementations :=
    fun _ hmem => (hperm .implementations).mem_iff.2 hmem
  cases rule with
  | interfacesAreInterfaces => exact fun plugin hmem => h plugin (hinterfaces plugin hmem)
  | implementationsAreConcrete =>
    exact fun plugin hmem => h plugin (himplementations plugin hmem)
  | uniqueNames side =>
    have hnames := (hperm side).map (·.name)
    exact hnames.nodup_iff.1 h
  | implementsExtensionPoint => exact fun plugin hmem => h plugin (himplementations plugin hmem)

/-- Plugins of distinct names make the same registry in any order. -/
theorem Registry.ofPlugins_eq_of_perm {plugins plugins' : List Plugin}
    (hperm : plugins.Perm plugins') (hnodup : (plugins.map (·.name)).Nodup) :
    ofPlugins plugins = ofPlugins plugins' := by
  have hnodup' : (plugins'.map (·.name)).Nodup := (hperm.map _).nodup_iff.1 hnodup
  refine ext_get? fun name => Option.ext fun plugin => ?_
  rw [get?_ofPlugins_eq_some_iff hnodup, get?_ofPlugins_eq_some_iff hnodup', hperm.mem_iff]

/-! ## Two discovery runs -/

namespace Discovery

/-- Two discovery runs over one catalog, with the same settings and rules, can read all fragments
and find the same names listed. -/
structure SameNames (d : Discovery) (files : Files) (d' : Discovery) (files' : Files) : Prop where
  /-- The catalogs are the same. -/
  catalog : d.catalog = d'.catalog
  /-- The settings are the same. -/
  settings : d.settings = d'.settings
  /-- The rules are the same. -/
  rules : d.rules = d'.rules
  /-- The first run can read every fragment that is there. -/
  readable : ∀ side, ∀ root ∈ d.searchPath,
    Manifest.Readable files (d.settings.manifest side) root
  /-- So can the second one. -/
  readable' : ∀ side, ∀ root ∈ d'.searchPath,
    Manifest.Readable files' (d'.settings.manifest side) root
  /-- The fragments of either manifest list the same names. -/
  listed : ∀ side name, d.Lists files side name ↔ d'.Lists files' side name

theorem clear_iff_of_readable {d : Discovery} {files : Files} {side : Side}
    (hread : ∀ root ∈ d.searchPath, Manifest.Readable files (d.settings.manifest side) root) :
    d.Clear files side ↔ ∀ name, d.Lists files side name → d.Admits side name := by
  constructor
  · intro hclear name hname
    obtain ⟨listing, hlisting, rfl⟩ := List.mem_map.1 (d.lists_iff_mem.1 hname)
    exact hclear.admitted listing hlisting
  · intro h
    refine ⟨hread, fun listing hlisting => ?_⟩
    exact h listing.typeName (Manifest.lists_of_mem hlisting)

/-- Where all fragments can be read, the code of a failure tells whether all names are admitted. -/
theorem code_of_outcome_survey {d : Discovery} {files : Files} {report : FaultReport}
    (hread : ∀ side, ∀ root ∈ d.searchPath,
      Manifest.Readable files (d.settings.manifest side) root)
    (h : (d.survey files).outcome = .error report) :
    ((∀ side, d.Clear files side) ∧ report.code = .incoherentDeclarations) ∨
      ((¬∀ side, d.Clear files side) ∧ report.code = .unresolvedType) := by
  cases outcome_survey_eq_iff.1 h with
  | unreadable side hside hpath hbefore hroot =>
    have hreadable := hread side _ (hpath ▸ List.mem_append_right _ List.mem_cons_self)
    rw [Manifest.Readable, hroot] at hreadable
    cases hreadable
  | unresolved side hside _ hlistings hbefore hrefused hlink =>
    refine .inr ⟨fun hclear => hrefused ?_, rfl⟩
    exact (hclear side).admitted _ (hlistings ▸ List.mem_append_right _ List.mem_cons_self)
  | incoherent hclear _ => exact .inl ⟨hclear, rfl⟩

namespace SameNames

variable {d d' : Discovery} {files files' : Files}

theorem symm (h : d.SameNames files d' files') : d'.SameNames files' d files :=
  ⟨h.catalog.symm, h.settings.symm, h.rules.symm, h.readable', h.readable,
    fun side name => (h.listed side name).symm⟩

theorem admits_iff (h : d.SameNames files d' files') {side : Side} {name : String} :
    d.Admits side name ↔ d'.Admits side name := by
  cases side with
  | interfaces => rw [Admits, Admits, h.catalog]
  | implementations => rw [Admits, Admits, h.catalog]

theorem clear (h : d.SameNames files d' files') {side : Side} (hclear : d.Clear files side) :
    d'.Clear files' side := by
  rw [clear_iff_of_readable (h.readable side)] at hclear
  rw [clear_iff_of_readable (h.readable' side)]
  intro name hname
  have hadmits := hclear name ((h.listed side name).2 hname)
  exact h.admits_iff.1 hadmits

theorem clear_iff (h : d.SameNames files d' files') {side : Side} :
    d.Clear files side ↔ d'.Clear files' side :=
  ⟨h.clear, h.symm.clear⟩

/-- Either run looks at the same names, though not in the same order. -/
theorem perm_names (h : d.SameNames files d' files') (side : Side) :
    ((Listing.firsts [] (d.listings files side)).map (·.typeName)).Perm
      ((Listing.firsts [] (d'.listings files' side)).map (·.typeName)) := by
  refine (List.perm_ext_iff_of_nodup (Listing.nodup_firsts _ _) (Listing.nodup_firsts _ _)).2 ?_
  intro name
  rw [Listing.mem_names_firsts, Listing.mem_names_firsts, ← lists_iff_mem, ← lists_iff_mem]
  exact and_congr_left' (h.listed side name)

theorem pluginNamed?_eq (h : d.SameNames files d' files') : d.pluginNamed? = d'.pluginNamed? := by
  funext name
  rw [pluginNamed?, pluginNamed?, h.catalog, h.settings]

/-- Both runs find the same plugins, though not in the same order. -/
theorem perm_plugins (h : d.SameNames files d' files') (side : Side) :
    (d.passResult files side).plugins.Perm (d'.passResult files' side).plugins := by
  rw [passResult, passResult, plugins_passOf, plugins_passOf, h.pluginNamed?_eq]
  exact (h.perm_names side).filterMap _

theorem perm_candidates (h : d.SameNames files d' files') (side : Side) :
    ((d.candidates files).on side).Perm ((d'.candidates files').on side) := by
  rw [on_candidates, on_candidates]
  exact h.perm_plugins side

/-- If one run succeeds, so does the other. -/
theorem outcome_survey (h : d.SameNames files d' files') {survey : Survey}
    (hsurvey : (d.survey files).outcome = .ok survey) :
    (d'.survey files').outcome = .ok (d'.surveyResult files') := by
  obtain ⟨hclear, hholds, -⟩ := outcome_survey_eq_ok_iff.1 hsurvey
  refine outcome_survey_eq_ok_iff.2 ⟨fun side => h.clear (hclear side), fun rule hrule => ?_, rfl⟩
  rw [← h.rules] at hrule
  rw [← h.catalog]
  exact (hholds rule hrule).of_perm h.perm_candidates

/-- If both runs fail, they fail with the same code. -/
theorem code_eq (h : d.SameNames files d' files') {report report' : FaultReport}
    (hreport : (d.survey files).outcome = .error report)
    (hreport' : (d'.survey files').outcome = .error report') : report.code = report'.code := by
  have hclear : (∀ side, d.Clear files side) ↔ ∀ side, d'.Clear files' side :=
    forall_congr' fun side => h.clear_iff
  rcases code_of_outcome_survey h.readable hreport with ⟨hall, hcode⟩ | ⟨hall, hcode⟩ <;>
    rcases code_of_outcome_survey h.readable' hreport' with ⟨hall', hcode'⟩ | ⟨hall', hcode'⟩
  · exact hcode.trans hcode'.symm
  · exact absurd (hclear.1 hall) hall'
  · exact absurd (hclear.2 hall') hall
  · exact hcode.trans hcode'.symm

end SameNames

end Discovery

/-! ## Two loads -/

namespace Loader

variable {l l' : Loader} {files files' : Files}

/-- Two loads that list the same names publish the same registries. -/
theorem registriesOf_on_eq (h : l.discovery.SameNames files l'.discovery files')
    {survey survey' : Survey} (hsurvey : (l.dryRun files).outcome = .ok survey)
    (hsurvey' : (l'.dryRun files').outcome = .ok survey') (generation generation' : Nat)
    (side : Side) :
    (registriesOf generation survey).on side = (registriesOf generation' survey').on side := by
  have hnodup := nodup_names_of_dryRun hsurvey side
  obtain ⟨-, -, rfl⟩ := Discovery.outcome_survey_eq_ok_iff.1 hsurvey
  obtain ⟨-, -, rfl⟩ := Discovery.outcome_survey_eq_ok_iff.1 hsurvey'
  rw [on_surveyResult] at hnodup
  rw [on_registriesOf, on_registriesOf, on_surveyResult, on_surveyResult]
  exact Registry.ofPlugins_eq_of_perm (h.perm_plugins side) hnodup

/-- Two loads over one catalog and with the same settings that can read all fragments and find the
same names listed end alike, whatever order, fragments and blanks the names are listed in: both
succeed or both fail, with the same code; and if they succeed, they publish the same registries, so
that every look-up answers alike. -/
theorem reload_by_listed_names (l l' : Loader) (files files' : Files)
    (h : l.discovery.SameNames files l'.discovery files') :
    ((∃ report, (l.reload files).2.outcome = .ok report) ↔
        ∃ report, (l'.reload files').2.outcome = .ok report) ∧
      (∀ report report', (l.reload files).2.outcome = .error report →
        (l'.reload files').2.outcome = .error report' → report.code = report'.code) ∧
      ∀ report report', (l.reload files).2.outcome = .ok report →
        (l'.reload files').2.outcome = .ok report' →
          (∀ side, (l.reload files).1.published.on side = (l'.reload files').1.published.on side) ∧
            ∀ name, (l.reload files).1.implementing name =
              (l'.reload files').1.implementing name := by
  refine ⟨?_, fun report report' hreport hreport' => ?_, fun report report' hreport hreport' => ?_⟩
  · rw [exists_reload_ok_iff, exists_reload_ok_iff]
    constructor
    · rintro ⟨survey, hsurvey⟩
      exact ⟨_, h.outcome_survey hsurvey⟩
    · rintro ⟨survey, hsurvey⟩
      exact ⟨_, h.symm.outcome_survey hsurvey⟩
  · exact h.code_eq (dryRun_of_reload_error hreport) (dryRun_of_reload_error hreport')
  · obtain ⟨survey, hsurvey, -⟩ := dryRun_of_reload_ok hreport
    obtain ⟨survey', hsurvey', -⟩ := dryRun_of_reload_ok hreport'
    rw [(reload_of_ok hsurvey).1, (reload_of_ok hsurvey').1]
    have hpublished := registriesOf_on_eq h hsurvey hsurvey' (l.generation + 1) (l'.generation + 1)
    refine ⟨hpublished, fun name => ?_⟩
    have himplementations := hpublished .implementations
    have hcatalog : l.catalog = l'.catalog := h.catalog
    simp only [implementing, hcatalog]
    exact congrArg (fun registry => Registry.implementing registry l'.catalog name) himplementations

/-- A loader whose manifests list an extension point and its two implementations once each. -/
def gathered : Loader where
  catalog := .ofList [
    { name := "acme.I", kind := .interface, marker := some { name := "i" } },
    { name := "acme.A", kind := .concreteClass, interfaces := ["acme.I"],
      marker := some { name := "a" } },
    { name := "acme.B", kind := .concreteClass, superclass := some "acme.A",
      marker := some { name := "b" } }]
  searchPath := [.embedded "e" (.ofList
    [("interfaces", "acme.I\n"), ("implementations", "acme.A\nacme.B\n")])]
  settings := ⟨"interfaces", "implementations", "spindle."⟩

/-- A loader that lists the same names repeatedly, in another order, in two fragments and with
blanks around them. -/
def scattered : Loader :=
  { gathered with
    searchPath := [
      .embedded "e" (.ofList [("implementations", "\r\n acme.B\r\nacme.A\t")]),
      .embedded "f" (.ofList
        [("interfaces", "acme.I \n\nacme.I"), ("implementations", "acme.B\n")])] }

/-- Both loads succeed and publish the same registries. -/
theorem reload_scattered :
    gathered.discovery.SameNames {} scattered.discovery {} ∧
      (∃ report, (gathered.reload {}).2.outcome = .ok report) ∧
      (∃ report, (scattered.reload {}).2.outcome = .ok report) ∧
      ∀ side, (gathered.reload {}).1.published.on side =
        (scattered.reload {}).1.published.on side := by
  have hclear : ∀ side, gathered.discovery.Clear {} side := by
    intro side
    refine Discovery.passFault?_eq_none_iff.1 ?_
    cases side <;> cbv
  have hclear' : ∀ side, scattered.discovery.Clear {} side := by
    intro side
    refine Discovery.passFault?_eq_none_iff.1 ?_
    cases side <;> cbv
  have hinterfaces : (gathered.discovery.listings {} .interfaces).map (·.typeName) =
      ["acme.I"] := by cbv
  have hinterfaces' : (scattered.discovery.listings {} .interfaces).map (·.typeName) =
      ["acme.I", "acme.I"] := by cbv
  have himplementations : (gathered.discovery.listings {} .implementations).map (·.typeName) =
      ["acme.A", "acme.B"] := by cbv
  have himplementations' : (scattered.discovery.listings {} .implementations).map (·.typeName) =
      ["acme.B", "acme.A", "acme.B"] := by cbv
  have hsame : gathered.discovery.SameNames {} scattered.discovery {} := by
    refine ⟨rfl, rfl, rfl, fun side => (hclear side).readable,
      fun side => (hclear' side).readable, fun side name => ?_⟩
    rw [Discovery.lists_iff_mem, Discovery.lists_iff_mem]
    cases side with
    | interfaces =>
      rw [hinterfaces, hinterfaces']
      simp
    | implementations =>
      rw [himplementations, himplementations']
      simp only [List.mem_cons, List.not_mem_nil, or_false]
      tauto
  have hholds : ∀ rule ∈ Coherence.Rule.standard,
      rule.Holds gathered.catalog (gathered.discovery.candidates {}) :=
    Coherence.violations_eq_nil_iff.1 (by cbv)
  have hreload := (reload_of_ok (Discovery.outcome_survey_of_holds hclear hholds)).2
  obtain ⟨hok, -, hpublished⟩ := reload_by_listed_names gathered scattered {} {} hsame
  obtain ⟨report, hreload'⟩ := hok.1 ⟨_, hreload⟩
  exact ⟨hsame, ⟨_, hreload⟩, ⟨_, hreload'⟩, (hpublished _ _ hreload hreload').1⟩

end Loader

end PluginDiscovery
