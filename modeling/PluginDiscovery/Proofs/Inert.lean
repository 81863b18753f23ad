import Mathlib
import PluginDiscovery.Proofs.Session

/-!
# Roots that change nothing

A root may list nothing but implementations that are skipped or carry no marker. Wherever it is put
on the search path, every load ends as it does without that root, except that the implementations
that the root makes it skip are reported too (`reload_beside_inert`).

The names of such a root count as listed from there on, so a later listing of one of them is passed
over. That is no loss, as the later listing would have come to nothing either: a pass finds the same
plugins if all listings that come to none are left out beforehand (`plugins_passOf_firsts`).
-/

namespace PluginDiscovery

namespace Manifest

variable {files : Files} {path : String} {before after : List ModuleRoot} {root : ModuleRoot}

theorem firstFault?_insert (hroot : Readable files path root) :
    firstFault? files path (before ++ root :: after) =
      firstFault? files path (before ++ after) := by
  have hnone : faultOf? files path root = none := faultOf?_eq_none_iff.2 hroot
  unfold firstFault?
  rw [List.findSome?_append, List.findSome?_append, List.findSome?_cons, hnone]

theorem allListings_append (roots roots' : List ModuleRoot) :
    allListings files path (roots ++ roots') =
      allListings files path roots ++ allListings files path roots' :=
  List.flatMap_append

theorem allListings_insert :
    allListings files path (before ++ root :: after) =
      allListings files path before ++
        (allListings files path [root] ++ allListings files path after) := by
  rw [allListings_append, ← List.singleton_append, allListings_append]

theorem lists_insert_iff {name : String} :
    Lists files path (before ++ root :: after) name ↔
      Lists files path (before ++ after) name ∨ Lists files path [root] name := by
  rw [lists_iff_mem, lists_iff_mem, lists_iff_mem, allListings_insert, allListings_append]
  simp only [List.map_append, List.mem_append]
  tauto

end Manifest

namespace Discovery

/-- The same run along another search path. -/
def along (d : Discovery) (roots : List ModuleRoot) : Discovery := { d with searchPath := roots }

/-- A root has no manifest of extension points, its manifest of implementations can be read, and
that lists only declared types that either do not link or carry no marker. -/
structure Inert (d : Discovery) (files : Files) (root : ModuleRoot) : Prop where
  /-- There is no manifest of extension points. -/
  absent : root.openPath files d.settings.interfaceManifest = .absent
  /-- The manifest of implementations can be read. -/
  readable : Manifest.Readable files d.settings.implementationManifest root
  /-- All types that it lists are declared. -/
  declared : ∀ name, Manifest.Lists files d.settings.implementationManifest [root] name →
    ∃ decl, d.catalog.find? name = some decl
  /-- Those among them that link carry no marker. -/
  unmarked : ∀ name, Manifest.Lists files d.settings.implementationManifest [root] name →
    ∀ decl, d.catalog.link name = .ok decl → decl.marker = none

namespace Inert

variable {d : Discovery} {files : Files} {before after : List ModuleRoot} {root : ModuleRoot}

theorem not_lists (h : d.Inert files root) (name : String) :
    ¬Manifest.Lists files d.settings.interfaceManifest [root] name := by
  rintro ⟨-, other, hother, stream, hopen, -⟩
  rw [List.mem_singleton.1 hother, h.absent] at hopen
  cases hopen

theorem readable_on (h : d.Inert files root) (side : Side) :
    Manifest.Readable files (d.settings.manifest side) root := by
  cases side with
  | interfaces =>
    change Manifest.failureOf? files d.settings.interfaceManifest root = none
    rw [Manifest.failureOf?, h.absent]
  | implementations => exact h.readable

/-- No pass ends at a name that the root lists. -/
theorem admits (h : d.Inert files root) {side : Side} {name : String}
    (hname : Manifest.Lists files (d.settings.manifest side) [root] name) :
    d.Admits side name := by
  cases side with
  | interfaces => exact absurd hname (h.not_lists name)
  | implementations => exact h.declared name hname

/-- No name that the root lists comes to a plugin. -/
theorem offers_eq_false (h : d.Inert files root) {side : Side} {name : String}
    (hname : Manifest.Lists files (d.settings.manifest side) [root] name) :
    d.catalog.offers name = false := by
  cases side with
  | interfaces => exact absurd hname (h.not_lists name)
  | implementations => exact Catalog.offers_eq_false_iff.2 (h.unmarked name hname)

/-- A name that the root lists either links or lacks something. -/
theorem lacks_iff (h : d.Inert files root) {name : String}
    (hname : Manifest.Lists files d.settings.implementationManifest [root] name) :
    d.catalog.lacks name = true ↔ ∀ decl, d.catalog.link name ≠ .ok decl := by
  obtain ⟨decl, hfind⟩ := h.declared name hname
  unfold Catalog.lacks
  rcases Catalog.link_of_find?_some hfind with hlink | ⟨missing, hlink⟩
  · simp [hlink]
  · simp [hlink]

end Inert

/-! ## Either pass -/

theorem passFault?_along (d : Discovery) (roots : List ModuleRoot) (files : Files) (side : Side) :
    (d.along roots).passFault? files side =
      (Manifest.firstFault? files (d.settings.manifest side) roots).or
        (d.firstFault? side (Manifest.allListings files (d.settings.manifest side) roots)) :=
  rfl

theorem passResult_along (d : Discovery) (roots : List ModuleRoot) (files : Files) (side : Side) :
    (d.along roots).passResult files side =
      d.passOf side
        (Listing.firsts [] (Manifest.allListings files (d.settings.manifest side) roots)) :=
  rfl

namespace Inert

variable {d : Discovery} {files : Files} {before after : List ModuleRoot} {root : ModuleRoot}

/-- The root brings no fault and hides none. -/
theorem passFault?_eq (h : d.Inert files root) (side : Side) :
    (d.along (before ++ root :: after)).passFault? files side =
      (d.along (before ++ after)).passFault? files side := by
  have hread : Manifest.firstFault? files (d.settings.manifest side) (before ++ root :: after) =
      Manifest.firstFault? files (d.settings.manifest side) (before ++ after) :=
    Manifest.firstFault?_insert (h.readable_on side)
  have hadmitted : d.firstFault? side
      (Manifest.allListings files (d.settings.manifest side) [root]) = none := by
    refine (d.firstFault?_eq_none_iff).2 ?_
    intro listing hlisting
    exact h.admits (Manifest.lists_of_mem hlisting)
  rw [passFault?_along, passFault?_along, hread, Manifest.allListings_insert,
    Manifest.allListings_append]
  simp only [firstFault?_append, hadmitted, Option.none_or]

/-- The root brings no plugin and hides none. -/
theorem plugins_eq (h : d.Inert files root) (side : Side) :
    ((d.along (before ++ root :: after)).passResult files side).plugins =
      ((d.along (before ++ after)).passResult files side).plugins := by
  have hnone : (Manifest.allListings files (d.settings.manifest side) [root]).filter
      (d.catalog.offers ·.typeName) = [] := by
    refine List.filter_eq_nil_iff.2 ?_
    intro listing hlisting
    rw [h.offers_eq_false (Manifest.lists_of_mem hlisting)]
    exact Bool.false_ne_true
  -- which listings come first may change, but not among those of offered names
  rw [passResult_along, passResult_along, plugins_passOf_firsts, plugins_passOf_firsts,
    Manifest.allListings_insert, Manifest.allListings_append]
  simp only [List.filter_append, hnone, List.nil_append]

theorem candidates_eq (h : d.Inert files root) :
    (d.along (before ++ root :: after)).candidates files =
      (d.along (before ++ after)).candidates files := by
  unfold candidates
  rw [h.plugins_eq, h.plugins_eq]

/-! ## The survey -/

/-- The run ends as without the root, but for what it skips. -/
theorem outcome_survey (h : d.Inert files root) :
    ((d.along (before ++ root :: after)).survey files).outcome =
      ((d.along (before ++ after)).survey files).outcome.map fun survey =>
        { survey with
          skipped :=
            ((d.along (before ++ root :: after)).passResult files .implementations).skipped } := by
  have hresult : (d.along (before ++ root :: after)).surveyResult files =
      { (d.along (before ++ after)).surveyResult files with
        skipped :=
          ((d.along (before ++ root :: after)).passResult files .implementations).skipped } := by
    unfold surveyResult
    rw [h.plugins_eq, h.plugins_eq]
  have hcheck : (d.along (before ++ root :: after)).check
        ((d.along (before ++ root :: after)).candidates files) =
      (d.along (before ++ after)).check ((d.along (before ++ after)).candidates files) := by
    rw [h.candidates_eq]
    rfl
  rw [outcome_survey_eq, outcome_survey_eq, h.passFault?_eq, h.passFault?_eq, hcheck, hresult]
  cases ((d.along (before ++ after)).passFault? files .interfaces).or
      ((d.along (before ++ after)).passFault? files .implementations) with
  | some fault => rfl
  | none =>
    cases ((d.along (before ++ after)).check ((d.along (before ++ after)).candidates files)).outcome
      <;> rfl

/-- With the root, the names that it lists and that do not link are skipped too. -/
theorem mem_skipped_names_iff (h : d.Inert files root) (name : String) :
    name ∈ ((d.along (before ++ root :: after)).passResult files .implementations).skipped.map
        (·.arg 0) ↔
      name ∈ ((d.along (before ++ after)).passResult files .implementations).skipped.map
          (·.arg 0) ∨
        Manifest.Lists files d.settings.implementationManifest [root] name ∧
          ∀ decl, d.catalog.link name ≠ .ok decl := by
  rw [Discovery.mem_skipped_names_iff, Discovery.mem_skipped_names_iff]
  have hlists : (d.along (before ++ root :: after)).Lists files .implementations name ↔
      (d.along (before ++ after)).Lists files .implementations name ∨
        Manifest.Lists files d.settings.implementationManifest [root] name :=
    Manifest.lists_insert_iff
  rw [hlists, or_and_right]
  refine or_congr_right (and_congr_right fun hname => ?_)
  exact h.lacks_iff hname

end Inert

end Discovery

/-! ## Loads -/

namespace Loader

/-- The same loader along another search path. -/
def along (l : Loader) (roots : List ModuleRoot) : Loader := { l with searchPath := roots }

/-- Put anywhere on the search path, a root that lists only implementations that do not link or
carry no marker, and nothing else, leaves every load as it is: the load fails with the same report
or succeeds all the same, it publishes the same registries, and it skips the types that it has
skipped without the root and those among the listed ones that do not link. -/
theorem reload_beside_inert (l : Loader) (files : Files) (before after : List ModuleRoot)
    (root : ModuleRoot) (h : l.discovery.Inert files root) :
    let narrow := l.along (before ++ after)
    let wide := l.along (before ++ root :: after)
    ((∃ report, (wide.reload files).2.outcome = .ok report) ↔
        ∃ report, (narrow.reload files).2.outcome = .ok report) ∧
      (∀ report, (wide.reload files).2.outcome = .error report ↔
        (narrow.reload files).2.outcome = .error report) ∧
      ∀ report report', (narrow.reload files).2.outcome = .ok report →
        (wide.reload files).2.outcome = .ok report' →
          (wide.reload files).1.published = (narrow.reload files).1.published ∧
            ∀ name, name ∈ report'.skipped.map (·.arg 0) ↔
              name ∈ report.skipped.map (·.arg 0) ∨
                Manifest.Lists files l.settings.implementationManifest [root] name ∧
                  ∀ decl, l.catalog.link name ≠ .ok decl := by
  intro narrow wide
  have hrun : (wide.dryRun files).outcome = (narrow.dryRun files).outcome.map fun survey =>
      { survey with
        skipped := (wide.discovery.passResult files .implementations).skipped } :=
    h.outcome_survey
  refine ⟨?_, fun report => ?_, fun report report' hreport hreport' => ?_⟩
  · rw [exists_reload_ok_iff, exists_reload_ok_iff, hrun]
    cases (narrow.dryRun files).outcome with
    | error report => simp [Except.map]
    | ok survey => simp [Except.map]
  · rw [outcome_reload, outcome_reload, hrun]
    cases (narrow.dryRun files).outcome with
    | error report => simp [Except.map]
    | ok survey => simp [Except.map]
  · -- what is skipped is not published
    obtain ⟨survey, hnarrow, rfl⟩ := dryRun_of_reload_ok hreport
    have hwide := hrun
    rw [hnarrow] at hwide
    obtain ⟨survey', hsurvey', rfl⟩ := dryRun_of_reload_ok hreport'
    obtain rfl : _ = survey' := Except.ok.inj (hwide.symm.trans hsurvey')
    obtain ⟨-, -, rfl⟩ := Discovery.outcome_survey_eq_ok_iff.1 hnarrow
    refine ⟨?_, fun name => h.mem_skipped_names_iff name⟩
    rw [(reload_of_ok hwide).1, (reload_of_ok hnarrow).1]
    rfl

/-- A loader whose catalog has an extension point, an implementation of it, two types that do not
link and one that carries no marker. -/
def patchy : Loader where
  catalog := .ofList [
    { name := "acme.I", kind := .interface, marker := some { name := "i" } },
    { name := "acme.A", kind := .concreteClass, interfaces := ["acme.I"],
      marker := some { name := "a" } },
    { name := "acme.B", kind := .concreteClass, requires := ["acme.X"],
      marker := some { name := "b" } },
    { name := "acme.C", kind := .concreteClass, requires := ["acme.X"],
      marker := some { name := "c" } },
    { name := "acme.D", kind := .concreteClass }]
  searchPath := []
  settings := ⟨"interfaces", "implementations", "spindle."⟩

/-- A root that lists the extension point and one of the types that do not link. -/
def front : ModuleRoot :=
  .embedded "f" (.ofList [("interfaces", "acme.I\n"), ("implementations", "acme.B\n")])

/-- A root that lists both types that do not link and the one that carries no marker. -/
def idle : ModuleRoot :=
  .embedded "i" (.ofList [("implementations", "acme.B\nacme.C\nacme.D\nacme.C\n")])

/-- A root that lists the implementation and, once more, the type that carries no marker. -/
def back : ModuleRoot :=
  .embedded "b" (.ofList [("implementations", "acme.D\nacme.A\n")])

/-- With the idle root `acme.C` is skipped too, and nothing else changes. -/
theorem reload_beside_idle :
    patchy.discovery.Inert {} idle ∧
      ∃ report report', ((patchy.along [front, back]).reload {}).2.outcome = .ok report ∧
        ((patchy.along [front, idle, back]).reload {}).2.outcome = .ok report' ∧
        ((patchy.along [front, idle, back]).reload {}).1.published =
          ((patchy.along [front, back]).reload {}).1.published ∧
        report.skipped.map (·.arg 0) = ["acme.B"] ∧
        "acme.C" ∈ report'.skipped.map (·.arg 0) := by
  have hnames : (Manifest.allListings {} patchy.settings.implementationManifest [idle]).map
      (·.typeName) = ["acme.B", "acme.C", "acme.D", "acme.C"] := by cbv
  have hlists : ∀ name, Manifest.Lists {} patchy.settings.implementationManifest [idle] name ↔
      name ∈ ["acme.B", "acme.C", "acme.D", "acme.C"] := by
    intro name
    rw [Manifest.lists_iff_mem, hnames]
  have hlink : patchy.catalog.link "acme.C" = .error (.missingDependency "acme.C" "acme.X") := by
    cbv
  have hall : ["acme.B", "acme.C", "acme.D", "acme.C"].all (fun name =>
      (patchy.catalog.find? name).isSome && !patchy.catalog.offers name) = true := by cbv
  have hinert : patchy.discovery.Inert {} idle := by
    refine ⟨by cbv, by cbv, fun name hname => ?_, fun name hname => ?_⟩
    all_goals
      have hboth := List.all_eq_true.1 hall name ((hlists name).1 hname)
      rw [Bool.and_eq_true, Bool.not_eq_true'] at hboth
    · exact Option.isSome_iff_exists.1 hboth.1
    · exact Catalog.offers_eq_false_iff.1 hboth.2
  have hclear : ∀ side, (patchy.along [front, back]).discovery.Clear {} side := by
    intro side
    refine Discovery.passFault?_eq_none_iff.1 ?_
    cases side <;> cbv
  have hholds : ∀ rule ∈ Coherence.Rule.standard,
      rule.Holds patchy.catalog ((patchy.along [front, back]).discovery.candidates {}) :=
    Coherence.violations_eq_nil_iff.1 (by cbv)
  have hskipped : ((patchy.along [front, back]).discovery.passResult {}
      .implementations).skipped.map (·.arg 0) = ["acme.B"] := by cbv
  have hrun : ((patchy.along [front, back]).dryRun {}).outcome = .ok _ :=
    Discovery.outcome_survey_of_holds hclear hholds
  have hnarrow := (reload_of_ok hrun).2
  obtain ⟨hok, -, hsame⟩ := reload_beside_inert patchy {} [front] [back] idle hinert
  obtain ⟨report', hwide⟩ := hok.2 ⟨_, hnarrow⟩
  obtain ⟨hpublished, hnew⟩ := hsame _ _ hnarrow hwide
  refine ⟨hinert, _, report', hnarrow, hwide, hpublished, hskipped, (hnew _).2 (.inr ⟨?_, ?_⟩)⟩
  · exact (hlists _).2 (List.mem_cons_of_mem _ List.mem_cons_self)
  · intro decl hdecl
    rw [hlink] at hdecl
    cases hdecl

end Loader

end PluginDiscovery
