import Mathlib
import PluginDiscovery.Proofs.Linking
import PluginDiscovery.Proofs.Published

/-!
# Details

The description, the version and the switch of a marker are details: discovery copies them into
plugins and never looks at them. Likewise the standard namespace only decides which plugins are
called standard. So that this can be said of whole runs, everything has a plain form, in which a
marker says nothing but its name and all types are standard. A plain loader runs like any other, and
its run is the plain form of the original one. This is shown function by function, from
`Catalog.link_plain` and `Catalog.extensionPoints_plain` through `Discovery.scan_plain` and
`Coherence.check_plain` to `Loader.run_plain`. Loaders with the same plain form thus run alike but
for details (`reload_but_for_details`).
-/

namespace PluginDiscovery

namespace Traced

variable {ε α β γ : Type}

/-- The same computation with its result seen through a function. -/
def map (f : α → β) (first : Traced ε α) : Traced ε β := ⟨first.events, first.outcome.map f⟩

theorem map_andThen (first : Traced ε α) (next : α → Traced ε β) (f : β → γ) :
    (first.andThen next).map f = first.andThen fun value => (next value).map f := by
  obtain ⟨events, outcome⟩ := first
  cases outcome <;> rfl

theorem andThen_map (first : Traced ε α) (f : α → β) (next : β → Traced ε γ) :
    (first.map f).andThen next = first.andThen fun value => next (f value) := by
  obtain ⟨events, outcome⟩ := first
  cases outcome <;> rfl

end Traced

namespace NameMap

variable {α β : Type}

/-- The map with a function applied to its values. -/
def map (f : α → β) (m : NameMap α) : NameMap β where
  entries := m.entries.map fun entry => (entry.1, f entry.2)
  increasing := List.pairwise_map.2 (m.increasing.imp fun h => h)

theorem find?_map (f : α → β) (m : NameMap α) (name : String) :
    (m.map f).find? name = (m.find? name).map f := by
  unfold find? Entries.find? map
  rw [List.find?_map, Option.map_map, Option.map_map]
  rfl

theorem values_map (f : α → β) (m : NameMap α) : (m.map f).values = m.values.map f := by
  unfold values map
  rw [List.map_map, List.map_map]
  rfl

theorem names_map (f : α → β) (m : NameMap α) : (m.map f).names = m.names := by
  unfold names map
  rw [List.map_map]
  rfl

end NameMap

/-! ## Declarations -/

/-- A marker with nothing but its name. -/
def Marker.plain (marker : Marker) : Marker := { name := marker.name }

namespace TypeDecl

/-- The declaration with the name only in its marker. -/
def plain (decl : TypeDecl) : TypeDecl := { decl with marker := decl.marker.map Marker.plain }

@[simp] theorem name_plain (decl : TypeDecl) : decl.plain.name = decl.name := rfl

@[simp] theorem parents_plain (decl : TypeDecl) : decl.plain.parents = decl.parents := rfl

@[simp] theorem dependencies_plain (decl : TypeDecl) :
    decl.plain.dependencies = decl.dependencies := rfl

@[simp] theorem isInterface_plain (decl : TypeDecl) :
    decl.plain.isInterface = decl.isInterface := rfl

@[simp] theorem isMarked_plain (decl : TypeDecl) : decl.plain.isMarked = decl.isMarked := by
  simp [isMarked, plain]

end TypeDecl

namespace Catalog

variable {c : Catalog}

/-- The catalog of the plain declarations. -/
def plain (c : Catalog) : Catalog where
  types := c.types.map TypeDecl.plain
  filed name decl h := by
    rw [NameMap.find?_map] at h
    obtain ⟨other, hother, rfl⟩ := Option.map_eq_some_iff.1 h
    exact c.filed name other hother

theorem find?_plain (c : Catalog) (name : String) :
    c.plain.find? name = (c.find? name).map TypeDecl.plain :=
  NameMap.find?_map _ _ _

theorem find?_plain_of_some {name : String} {decl : TypeDecl} (h : c.find? name = some decl) :
    c.plain.find? name = some decl.plain := by
  rw [find?_plain, h]
  rfl

theorem find?_plain_of_none {name : String} (h : c.find? name = none) :
    c.plain.find? name = none := by
  rw [find?_plain, h]
  rfl

theorem ext_find? {c c' : Catalog} (h : ∀ name, c.find? name = c'.find? name) : c = c' := by
  have htypes : c.types = c'.types := NameMap.ext_find? h
  cases c
  cases c'
  simpa using htypes

theorem plain_register (c : Catalog) (decl : TypeDecl) :
    (c.register decl).plain = c.plain.register decl.plain := by
  refine ext_find? fun name => ?_
  rw [find?_plain, find?_register, find?_register, find?_plain, TypeDecl.name_plain]
  by_cases h : name = decl.name
  · rw [if_pos h, if_pos h]
    rfl
  · rw [if_neg h, if_neg h]

theorem plain_ofList (decls : List TypeDecl) :
    (ofList decls).plain = ofList (decls.map TypeDecl.plain) := by
  have hfold : ∀ c : Catalog, (decls.foldl register c).plain =
      (decls.map TypeDecl.plain).foldl register c.plain := by
    induction decls with
    | nil => exact fun c => rfl
    | cons decl decls ih =>
      intro c
      rw [List.foldl_cons, ih, plain_register]
      rfl
  exact hfold empty

theorem walk_plain (seen stack : List String) : c.plain.walk seen stack = c.walk seen stack := by
  induction seen, stack using walk.induct c with
  | case1 seen => rw [walk, walk]
  | case2 seen name stack hseen ih => rw [walk_cons_of_mem hseen, walk_cons_of_mem hseen, ih]
  | case3 seen name stack hseen hfind =>
    rw [walk_cons_of_none hseen hfind, walk_cons_of_none hseen (find?_plain_of_none hfind)]
  | case4 seen name stack hseen decl hfind ih =>
    rw [walk_cons_of_some hseen hfind, walk_cons_of_some hseen (find?_plain_of_some hfind),
      TypeDecl.dependencies_plain, ih]

/-- What a marker says bears on no link. -/
theorem link_plain (c : Catalog) (name : String) :
    c.plain.link name = (c.link name).map TypeDecl.plain := by
  unfold link
  rw [find?_plain]
  cases hfind : c.find? name with
  | none => rfl
  | some decl =>
    simp only [Option.map_some, TypeDecl.dependencies_plain, walk_plain]
    cases (c.walk [name] decl.dependencies.reverse).missing <;> rfl

theorem inherited_plain (seen queue : List String) :
    c.plain.inherited seen queue = (c.inherited seen queue).map TypeDecl.plain := by
  induction seen, queue using inherited.induct c with
  | case1 seen => rw [inherited, inherited, List.map_nil]
  | case2 seen name queue hseen ih =>
    rw [inherited_cons_of_mem hseen, inherited_cons_of_mem hseen, ih]
  | case3 seen name queue hseen hfind ih =>
    rw [inherited_cons_of_none hseen hfind,
      inherited_cons_of_none hseen (find?_plain_of_none hfind), ih]
  | case4 seen name queue hseen decl hfind hinterface ih
  | case5 seen name queue hseen decl hfind hinterface ih =>
    rw [inherited_cons_of_some hseen hfind,
      inherited_cons_of_some hseen (find?_plain_of_some hfind), TypeDecl.isInterface_plain,
      TypeDecl.parents_plain, ih, List.map_append]
    cases decl.isInterface <;> rfl

theorem extensionPoints_plain (c : Catalog) (decl : TypeDecl) :
    c.plain.extensionPoints decl.plain = (c.extensionPoints decl).map TypeDecl.plain := by
  unfold extensionPoints ancestors
  rw [TypeDecl.name_plain, TypeDecl.parents_plain, inherited_plain, List.filter_map]
  refine congrArg _ (List.filter_congr fun other _ => ?_)
  exact TypeDecl.isMarked_plain other

end Catalog

/-! ## Plugins and rules -/

namespace Plugin

/-- The plugin as it would be without details, and with all types in the standard namespace. -/
def plain (plugin : Plugin) : Plugin where
  owner := plugin.owner.plain
  name := plugin.name
  description := ""
  version := ""
  enabled := true
  standard := true

@[simp] theorem name_plain (plugin : Plugin) : plugin.plain.name = plugin.name := rfl

@[simp] theorem owner_plain (plugin : Plugin) : plugin.plain.owner = plugin.owner.plain := rfl

/-- In the empty namespace all types are standard. -/
theorem ofDecl?_plain (standardNamespace : String) (decl : TypeDecl) :
    ofDecl? "" decl.plain = (ofDecl? standardNamespace decl).map plain := by
  unfold ofDecl?
  cases hmarker : decl.marker with
  | none => simp [TypeDecl.plain, hmarker]
  | some marker => simp [TypeDecl.plain, hmarker, ofMarker, plain, Marker.plain]

end Plugin

/-- The candidates as plain plugins. -/
def Candidates.plain (candidates : Candidates) : Candidates where
  interfaces := candidates.interfaces.map Plugin.plain
  implementations := candidates.implementations.map Plugin.plain

theorem Candidates.on_plain (candidates : Candidates) (side : Side) :
    candidates.plain.on side = (candidates.on side).map Plugin.plain := by
  cases side <;> rfl

namespace Coherence

namespace Rule

theorem repeatedNames_plain (plugins : List Plugin) :
    repeatedNames (plugins.map Plugin.plain) = repeatedNames plugins := by
  unfold repeatedNames owners
  rw [List.foldl_map]
  rfl

/-- A rule that looks at single plugins reports the same if it does not look at details. -/
theorem map_faultOf_filter_plain (code : FaultCode) {bad bad' : Plugin → Bool}
    (h : ∀ plugin, bad' plugin.plain = bad plugin) (plugins : List Plugin) :
    ((plugins.map Plugin.plain).filter bad').map (faultOf code) =
      (plugins.filter bad).map (faultOf code) := by
  rw [List.filter_map, List.map_map]
  have hfilter : plugins.filter (bad' ∘ Plugin.plain) = plugins.filter bad :=
    List.filter_congr fun plugin _ => h plugin
  rw [hfilter]
  rfl

theorem violations_plain (c : Catalog) (candidates : Candidates) (rule : Rule) :
    rule.violations c.plain candidates.plain = rule.violations c candidates := by
  cases rule with
  | interfacesAreInterfaces => exact map_faultOf_filter_plain _ (fun plugin => rfl) _
  | implementationsAreConcrete => exact map_faultOf_filter_plain _ (fun plugin => rfl) _
  | uniqueNames side =>
    rw [violations, violations, Candidates.on_plain, repeatedNames_plain]
  | implementsExtensionPoint =>
    refine map_faultOf_filter_plain _ (fun plugin => ?_) _
    rw [Plugin.owner_plain, Catalog.extensionPoints_plain, List.isEmpty_map]

end Rule

theorem check_plain (c : Catalog) (rules : List Rule) (candidates : Candidates) :
    check c.plain rules candidates.plain = check c rules candidates := by
  have hviolations : Rule.violations c.plain candidates.plain = Rule.violations c candidates :=
    funext fun rule => Rule.violations_plain c candidates rule
  unfold check events violations
  rw [hviolations]

end Coherence

/-! ## Discovery -/

/-- The settings with all types in the standard namespace. -/
def Settings.plain (settings : Settings) : Settings := { settings with standardNamespace := "" }

/-- A pass that keeps plain plugins. -/
def Pass.plain (pass : Pass) : Pass := { pass with plugins := pass.plugins.map Plugin.plain }

/-- A survey that shows plain plugins. -/
def Survey.plain (survey : Survey) : Survey where
  interfaces := survey.interfaces.map Plugin.plain
  implementations := survey.implementations.map Plugin.plain
  skipped := survey.skipped

namespace Discovery

/-- The run over the plain catalog, with all types in the standard namespace. -/
def plain (d : Discovery) : Discovery :=
  { d with
    catalog := d.catalog.plain
    settings := d.settings.plain }

variable (d : Discovery)

theorem scan_plain (side : Side) (seen : List String) (listings : List Listing) :
    d.plain.scan side seen listings = (d.scan side seen listings).map Pass.plain := by
  induction listings generalizing seen with
  | nil => rfl
  | cons listing rest ih =>
    have hlink : d.plain.catalog.link listing.typeName =
        (d.catalog.link listing.typeName).map TypeDecl.plain := Catalog.link_plain _ _
    unfold scan
    by_cases hseen : listing.typeName ∈ seen
    · simp only [hseen, if_true, Traced.bind_eq, Traced.map_andThen, ih]
    · -- the name links, or fails to link, in both catalogs alike
      simp only [hseen, if_false, hlink, Traced.bind_eq]
      cases d.catalog.link listing.typeName with
      | error error =>
        cases error with
        | notFound name => cases side <;> rfl
        | missingDependency name missing =>
          cases side with
          | interfaces => rfl
          | implementations =>
            simp only [Except.map, Traced.map_andThen, ih, Traced.andThen_map]
            rfl
      | ok decl =>
        have hplugin : Plugin.ofDecl? d.plain.settings.standardNamespace decl.plain =
            (Plugin.ofDecl? d.settings.standardNamespace decl).map Plugin.plain :=
          Plugin.ofDecl?_plain _ decl
        simp only [Except.map, hplugin]
        cases Plugin.ofDecl? d.settings.standardNamespace decl with
        | some plugin =>
          cases side <;>
            simp only [Option.map_some, Traced.map_andThen, ih, Traced.andThen_map] <;> rfl
        | none =>
          cases side <;> simp only [Option.map_none, Traced.map_andThen, ih]

theorem pass_plain (files : Files) (side : Side) :
    d.plain.pass files side = (d.pass files side).map Pass.plain := by
  have hmanifest : d.plain.settings.manifest side = d.settings.manifest side := by
    cases side <;> rfl
  unfold pass
  simp only [hmanifest, Traced.bind_eq, Traced.map_andThen, scan_plain]
  rfl

/-- A run over the plain catalog emits the same events and ends in the same way, with the same
plugins but for their details. -/
theorem survey_plain (files : Files) :
    d.plain.survey files = (d.survey files).map Survey.plain := by
  unfold survey
  simp only [Traced.bind_eq, pass_plain, Traced.andThen_map, Traced.map_andThen]
  refine congrArg _ (funext fun interfaces => ?_)
  refine congrArg _ (funext fun implementations => ?_)
  have hcheck := Coherence.check_plain d.catalog d.rules
    ⟨interfaces.plugins, implementations.plugins⟩
  exact congrArg (fun checked => Traced.andThen checked _) hcheck

end Discovery

/-! ## Registries -/

namespace Registry

/-- The registry of the plain plugins. -/
def plain (r : Registry) : Registry where
  plugins := r.plugins.map Plugin.plain
  filed name plugin h := by
    rw [NameMap.find?_map] at h
    obtain ⟨other, hother, rfl⟩ := Option.map_eq_some_iff.1 h
    exact r.filed name other hother

theorem get?_plain (r : Registry) (name : String) :
    r.plain.get? name = (r.get? name).map Plugin.plain :=
  NameMap.find?_map _ _ _

theorem names_plain (r : Registry) : r.plain.names = r.names :=
  NameMap.names_map _ _

theorem toList_plain (r : Registry) : r.plain.toList = r.toList.map Plugin.plain :=
  NameMap.values_map _ _

theorem ofPlugins_plain (plugins : List Plugin) :
    ofPlugins (plugins.map Plugin.plain) = (ofPlugins plugins).plain := by
  refine ext_get? fun name => ?_
  rw [get?_plain, get?_ofPlugins, get?_ofPlugins, ← List.map_reverse, List.find?_map]
  rfl

/-- Details bear on no look-up. -/
theorem implementing_plain (r : Registry) (c : Catalog) (name : String) :
    r.plain.implementing c.plain name = (r.implementing c name).map (List.map Plugin.plain) := by
  unfold implementing
  rw [Catalog.find?_plain, toList_plain, List.filter_map]
  have hfilter : r.toList.filter ((fun plugin =>
        (c.plain.extensionPoints plugin.owner).any (·.name = name)) ∘ Plugin.plain) =
      r.toList.filter fun plugin => (c.extensionPoints plugin.owner).any (·.name = name) := by
    refine List.filter_congr fun plugin _ => ?_
    simp only [Function.comp_apply, Plugin.owner_plain, Catalog.extensionPoints_plain, List.any_map]
    rfl
  rw [hfilter]
  cases c.find? name with
  | none => rfl
  | some decl =>
    simp only [Option.map_some, TypeDecl.isInterface_plain, TypeDecl.isMarked_plain]
    cases decl.isInterface && decl.isMarked <;> rfl

end Registry

/-- Both registries with plain plugins. -/
def Registries.plain (registries : Registries) : Registries where
  generation := registries.generation
  interfaces := registries.interfaces.plain
  implementations := registries.implementations.plain

theorem Registries.on_plain (registries : Registries) (side : Side) :
    registries.plain.on side = (registries.on side).plain := by
  cases side <;> rfl

/-! ## Sessions -/

/-- The answer as far as it does not depend on details: the plugins in it are plain. -/
def Answer.plain : Answer → Answer
  | reloaded outcome => .reloaded outcome
  | surveyed outcome => .surveyed (outcome.map Survey.plain)
  | found result => .found (result.map (List.map Plugin.plain))
  | .registry content => .registry content.plain
  | .registries contents => .registries contents.plain

namespace Loader

/-- The loader over the plain catalog, with all types in the standard namespace, as if it had
published plain plugins. -/
def plain (l : Loader) : Loader :=
  { l with
    catalog := l.catalog.plain
    settings := l.settings.plain
    published := l.published.plain }

theorem registriesOf_plain (generation : Nat) (survey : Survey) :
    registriesOf generation survey.plain = (registriesOf generation survey).plain := by
  unfold registriesOf Survey.plain
  simp only [Registry.ofPlugins_plain]
  rfl

theorem reportOf_plain (generation : Nat) (survey : Survey) :
    reportOf generation survey.plain = reportOf generation survey := by
  simp [reportOf, Survey.plain]

theorem dryRun_plain (l : Loader) (files : Files) :
    l.plain.dryRun files = (l.dryRun files).map Survey.plain :=
  Discovery.survey_plain l.discovery files

/-- A reload ends in the same way, and what it publishes differs in details only. -/
theorem reload_plain (l : Loader) (files : Files) :
    l.plain.reload files = ((l.reload files).1.plain, (l.reload files).2) := by
  have hgeneration : l.plain.generation = l.generation := rfl
  unfold reload
  rw [dryRun_plain, hgeneration]
  obtain ⟨events, outcome⟩ := l.dryRun files
  cases outcome with
  | error report => rfl
  | ok survey =>
    simp only [Traced.map, Except.map, reportOf_plain, registriesOf_plain]
    rfl

theorem implementing_plain (l : Loader) (name : String) :
    l.plain.implementing name = (l.implementing name).map (List.map Plugin.plain) :=
  Registry.implementing_plain _ _ _

theorem step_plain (l : Loader) (op : Operation) :
    l.plain.step op = ((l.step op).1.plain, (l.step op).2.plain) := by
  cases op with
  | reload files =>
    rw [step, reload_plain]
    rfl
  | dryRun files =>
    rw [step, dryRun_plain]
    rfl
  | find name =>
    rw [step, implementing_plain]
    rfl
  | read side =>
    have hside : l.plain.published.on side = (l.published.on side).plain :=
      Registries.on_plain _ side
    rw [step, hside]
    rfl
  | snapshot => rfl

/-- A session over a plain catalog is the same session but for the details in its answers. -/
theorem run_plain (l : Loader) (ops : List Operation) :
    l.plain.run ops = ((l.run ops).1.plain, (l.run ops).2.map Answer.plain) := by
  induction ops generalizing l with
  | nil => rfl
  | cons op ops ih => rw [run, run, step_plain, ih, List.map_cons]

/-- Let two catalogs declare the same but for what markers say beyond their names, and two settings
differ in the standard namespace at most. Then a reload from the same files, after the same session,
emits the same events and ends in the same way: with the same report if it succeeds, and with the
same faults if it fails. The notes are the same. What is published has the same names, and under
each name plugins that differ in details only; and a look-up fails with the same fault or finds the
same plugins but for details, in the same order. -/
theorem reload_but_for_details {catalog catalog' : Catalog} {settings settings' : Settings}
    (hcatalog : catalog.plain = catalog'.plain) (hsettings : settings.plain = settings'.plain)
    (searchPath : List ModuleRoot) (ops : List Operation) (files : Files) :
    let l := ((start catalog searchPath settings).run ops).1
    let l' := ((start catalog' searchPath settings').run ops).1
    (l.reload files).2 = (l'.reload files).2 ∧
      (l.reload files).1.notes = (l'.reload files).1.notes ∧
      (∀ side,
        ((l.reload files).1.published.on side).names =
            ((l'.reload files).1.published.on side).names ∧
          ∀ name, (((l.reload files).1.published.on side).get? name).map Plugin.plain =
            (((l'.reload files).1.published.on side).get? name).map Plugin.plain) ∧
      ∀ name, ((l.reload files).1.implementing name).map (List.map Plugin.plain) =
        ((l'.reload files).1.implementing name).map (List.map Plugin.plain) := by
  intro l l'
  have hstart : (start catalog searchPath settings).plain =
      (start catalog' searchPath settings').plain := by
    unfold start plain
    rw [hcatalog, hsettings]
  -- both sessions have one plain form, and so do the reloads that follow them
  have hrun : l.plain = l'.plain := by
    have hplain := congrArg (fun before => (before.run ops).1) hstart
    simp only [run_plain] at hplain
    exact hplain
  have hreload : ((l.reload files).1.plain, (l.reload files).2) =
      ((l'.reload files).1.plain, (l'.reload files).2) := by
    rw [← reload_plain, ← reload_plain, hrun]
  obtain ⟨hafter, hanswer⟩ := Prod.mk.inj hreload
  have hpublished : ∀ side, ((l.reload files).1.published.on side).plain =
      ((l'.reload files).1.published.on side).plain := by
    intro side
    rw [← Registries.on_plain, ← Registries.on_plain]
    exact congrArg (fun after => after.published.on side) hafter
  have hnotes : (l.reload files).1.plain.notes = (l'.reload files).1.plain.notes := by rw [hafter]
  refine ⟨hanswer, hnotes, fun side => ⟨?_, fun name => ?_⟩, fun name => ?_⟩
  · have hnames := congrArg Registry.names (hpublished side)
    rwa [Registry.names_plain, Registry.names_plain] at hnames
  · rw [← Registry.get?_plain, ← Registry.get?_plain, hpublished]
  · rw [← implementing_plain, ← implementing_plain, hafter]

/-- An extension point and its implementation, with nothing said about them. -/
def terse : List TypeDecl := [
  { name := "acme.I", kind := .interface, marker := some { name := "i" } },
  { name := "acme.A", kind := .concreteClass, interfaces := ["acme.I"],
    marker := some { name := "a" } }]

/-- The same types; the implementation is switched off. -/
def detailed : List TypeDecl := [
  { name := "acme.I", kind := .interface,
    marker := some { name := "i", description := "a point", version := "1.0.0" } },
  { name := "acme.A", kind := .concreteClass, interfaces := ["acme.I"],
    marker := some { name := "a", version := "zero", enabled := false } }]

/-- Where the types of `terse` and `detailed` are listed. -/
def listed : List ModuleRoot := [.embedded "e" (.ofList
  [("interfaces", "acme.I\n"), ("implementations", "acme.A\n")])]

/-- A load finds the implementation whether it is switched off or not, and whether or not its type
is standard. -/
theorem reload_detailed :
    let l := start (.ofList terse) listed ⟨"interfaces", "implementations", "acme."⟩
    let l' := start (.ofList detailed) listed ⟨"interfaces", "implementations", "spindle."⟩
    l.catalog.plain = l'.catalog.plain ∧ l.settings.plain = l'.settings.plain ∧
      ∃ report, (l.reload {}).2.outcome = .ok report ∧ (l'.reload {}).2.outcome = .ok report ∧
        report.implementations = 1 ∧
        (l'.reload {}).1.published.implementations.names =
          (l.reload {}).1.published.implementations.names := by
  intro l l'
  have hcatalog : l.catalog.plain = l'.catalog.plain := by
    have hterse : l.catalog.plain = .ofList (terse.map TypeDecl.plain) := Catalog.plain_ofList _
    have hdetailed : l'.catalog.plain = .ofList (detailed.map TypeDecl.plain) :=
      Catalog.plain_ofList _
    rw [hterse, hdetailed]
    rfl
  have hsettings : l.settings.plain = l'.settings.plain := rfl
  have hfaults : ∀ side, l.discovery.passFault? {} side = none := by
    intro side
    cases side <;> cbv
  have hviolations : Coherence.violations l.catalog l.discovery.rules
      (l.discovery.candidates {}) = [] := by cbv
  have hreload := (reload_of_ok (Discovery.outcome_survey_of_faultless hfaults hviolations)).2
  have hcount : (l.discovery.surveyResult {}).implementations.length = 1 := by cbv
  obtain ⟨hsame, -, hpublished, -⟩ :=
    reload_but_for_details hcatalog hsettings listed [] {}
  refine ⟨hcatalog, hsettings, _, hreload, ?_, hcount, (hpublished .implementations).1.symm⟩
  rw [← hreload]
  exact congrArg Traced.outcome hsame.symm

end Loader

end PluginDiscovery
