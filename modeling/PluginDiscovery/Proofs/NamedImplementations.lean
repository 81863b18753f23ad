import Mathlib
import PluginDiscovery.Samples
import PluginDiscovery.Proofs.Linking
import PluginDiscovery.Proofs.Lookup
import PluginDiscovery.Proofs.ManifestText
import PluginDiscovery.Proofs.Reports
import PluginDiscovery.Proofs.Violations

/-!
# Loading numbered implementations

The sample catalog of numbered implementations declares one implementation of the cache extension
point for each of some given names. All its types link, and the manifest that lists them by number
is read back as it was written. So nothing but the rule on names can fail a load of them, and what a
load comes to is told by the names alone (`reload_numbered`): it succeeds when they are distinct,
and else it reports the repeated ones, each with the numbers at which it stands.
-/

namespace PluginDiscovery

namespace Samples

/-! ## The names of the types -/

/-- The name of the type of a number. -/
def numberedType (number : Nat) : String := s!"acme.Impl{number}"

theorem toList_numberedType (number : Nat) :
    (numberedType number).toList = "acme.Impl".toList ++ Nat.toDigits 10 number := by
  have happend : numberedType number = "acme.Impl" ++ Nat.repr number := rfl
  have hrepr : (Nat.repr number).toList = Nat.toDigits 10 number := String.toList_ofList
  rw [happend, String.toList_append, hrepr]

theorem numberedType_injective : Function.Injective numberedType := by
  intro number other heq
  have hlists : Nat.toDigits 10 number = Nat.toDigits 10 other := by
    have hsame := congrArg String.toList heq
    rw [toList_numberedType, toList_numberedType] at hsame
    exact List.append_cancel_left hsame
  exact Nat.repr_injective (congrArg String.ofList hlists)

theorem not_isBlank_numberedType {number : Nat} {c : Char}
    (h : c ∈ (numberedType number).toList) : Text.isBlank c = false := by
  have hword : ∀ c ∈ "acme.Impl".toList, 33 ≤ c.toNat ∧ c.toNat ≤ 126 := by simp
  rw [toList_numberedType] at h
  rcases List.mem_append.1 h with h | h
  · exact Text.isBlank_of_visible (hword c h)
  · have hdigit : c.isDigit = true := Nat.isDigit_of_mem_toDigits (by decide) (by decide) h
    have hrange : 48 ≤ c.toNat ∧ c.toNat ≤ 57 := Char.isDigit_iff_toNat.1 hdigit
    exact Text.isBlank_of_visible (by omega)

theorem numberedType_ne_cache (number : Nat) : numberedType number ≠ cache := by
  intro heq
  have hchars := congrArg String.toList heq
  rw [toList_numberedType] at hchars
  simp [cache] at hchars

/-! ## The catalog -/

/-- The extension point that all numbered implementations implement. -/
def cachePoint : TypeDecl where
  name := cache
  kind := .interface
  marker := some { name := "cache" }

/-- The types of the catalog of numbered implementations. -/
def numberedTypes (names : List String) : List TypeDecl :=
  cachePoint :: names.zipIdx.map fun entry => namedImplementation entry.1 entry.2

theorem namedImplementations_eq (names : List String) :
    namedImplementations names = .ofList (numberedTypes names) := rfl

variable {names : List String}

theorem nodup_numberedTypes (names : List String) :
    ((numberedTypes names).map (·.name)).Nodup := by
  have hnames : (names.zipIdx.map fun entry => namedImplementation entry.1 entry.2).map (·.name) =
      (names.zipIdx.map Prod.snd).map numberedType := by
    rw [List.map_map, List.map_map]
    rfl
  unfold numberedTypes
  rw [List.map_cons, hnames]
  refine List.nodup_cons.2 ⟨fun hmem => ?_, ?_⟩
  · obtain ⟨number, -, heq⟩ := List.mem_map.1 hmem
    exact numberedType_ne_cache number heq
  · exact (List.nodup_zipIdx_map_snd names).map numberedType_injective

theorem find?_namedImplementations {decl : TypeDecl} (h : decl ∈ numberedTypes names) :
    (namedImplementations names).find? decl.name = some decl := by
  rw [namedImplementations_eq, Catalog.find?_ofList_eq_some_iff (nodup_numberedTypes names)]
  exact ⟨h, rfl⟩

theorem mem_of_find?_namedImplementations {name : String} {decl : TypeDecl}
    (h : (namedImplementations names).find? name = some decl) : decl ∈ numberedTypes names := by
  rw [namedImplementations_eq,
    Catalog.find?_ofList_eq_some_iff (nodup_numberedTypes names)] at h
  exact h.1

theorem cachePoint_mem (names : List String) : cachePoint ∈ numberedTypes names :=
  List.mem_cons_self

theorem namedImplementation_mem {entry : String × Nat} (h : entry ∈ names.zipIdx) :
    namedImplementation entry.1 entry.2 ∈ numberedTypes names :=
  List.mem_cons_of_mem _ (List.mem_map_of_mem h)

/-- All types of the catalog link: they depend on the extension point at most. -/
theorem link_namedImplementations {decl : TypeDecl} (h : decl ∈ numberedTypes names) :
    (namedImplementations names).link decl.name = .ok decl := by
  refine Catalog.link_eq_ok_iff.2 ⟨find?_namedImplementations h, ?_⟩
  have hdeclared := find?_namedImplementations h
  refine Catalog.complete_of_closed (fun source target hstep => ?_) ⟨decl, hdeclared⟩
  obtain ⟨other, hother, htarget⟩ := hstep
  -- the extension point depends on nothing, and an implementation on nothing else
  have hcache : target = cache := by
    rcases List.mem_cons.1 (mem_of_find?_namedImplementations hother) with rfl | hmem
    · cases htarget
    · obtain ⟨entry, -, rfl⟩ := List.mem_map.1 hmem
      exact List.mem_singleton.1 htarget
  rw [hcache]
  exact ⟨cachePoint, find?_namedImplementations (cachePoint_mem names)⟩

theorem isExtensionPoint_cache (names : List String) :
    (namedImplementations names).IsExtensionPoint cache :=
  ⟨cachePoint, find?_namedImplementations (cachePoint_mem names), rfl, rfl⟩

theorem inherits_cache (name : String) (number : Nat) :
    (namedImplementations names).Inherits (namedImplementation name number) cache := by
  refine ⟨fun heq => ?_, cache, List.mem_singleton_self cache, .refl cache⟩
  exact numberedType_ne_cache number heq.symm

/-! ## The loader -/

theorem range_eq_zipIdx (names : List String) :
    List.range names.length = names.zipIdx.map Prod.snd := by
  rw [List.zipIdx_map_snd, List.range_eq_range']

/-- The names that the manifest of one side lists. -/
def listedTypes (names : List String) : Side → List String
  | .interfaces => [cache]
  | .implementations => (List.range names.length).map numberedType

theorem exists_type_of_mem_listedTypes {side : Side} {name : String}
    (h : name ∈ listedTypes names side) : ∃ decl ∈ numberedTypes names, decl.name = name := by
  cases side with
  | interfaces => exact ⟨cachePoint, cachePoint_mem names, (List.mem_singleton.1 h).symm⟩
  | implementations =>
    obtain ⟨number, hnumber, rfl⟩ := List.mem_map.1 h
    rw [range_eq_zipIdx] at hnumber
    obtain ⟨entry, hentry, rfl⟩ := List.mem_map.1 hnumber
    exact ⟨_, namedImplementation_mem hentry, rfl⟩

theorem nodup_listedTypes (names : List String) (side : Side) : (listedTypes names side).Nodup := by
  cases side with
  | interfaces => exact List.nodup_singleton cache
  | implementations => exact List.nodup_range.map numberedType_injective

/-- The manifest of one side: that of the extension points is one line that is not ended, that of
the implementations has one line for each of them. -/
def manifestText (names : List String) : Side → String
  | .interfaces => cache
  | .implementations => String.join ((listedTypes names .implementations).map (· ++ "\n"))

/-- A root that holds both manifests. -/
def numberedRoot (label : String) (settings : Settings) (names : List String) : ModuleRoot :=
  .embedded label (.ofList
    [(settings.interfaceManifest, manifestText names .interfaces),
      (settings.implementationManifest, manifestText names .implementations)])

/-- A loader over numbered implementations. -/
def numberedLoader (label : String) (settings : Settings) (names : List String) : Loader where
  catalog := namedImplementations names
  searchPath := [numberedRoot label settings names]
  settings := settings

variable {label : String} {settings : Settings} {files : Files}

theorem openPath_numberedRoot
    (hpaths : settings.interfaceManifest ≠ settings.implementationManifest) (side : Side) :
    (numberedRoot label settings names).openPath files (settings.manifest side) =
      .opened (.ofText (manifestText names side)) := by
  unfold numberedRoot ModuleRoot.openPath NameMap.ofList
  simp only [List.foldl_cons, List.foldl_nil, NameMap.find?_insert]
  cases side with
  | interfaces => simp [Settings.manifest, hpaths]
  | implementations => simp [Settings.manifest]

/-- Either manifest is read back as it was written. -/
theorem names_listingsOf_numbered
    (hpaths : settings.interfaceManifest ≠ settings.implementationManifest) (side : Side) :
    Manifest.Readable files (settings.manifest side) (numberedRoot label settings names) ∧
      (Manifest.listingsOf files (settings.manifest side)
        (numberedRoot label settings names)).map (·.typeName) = listedTypes names side := by
  have hopen : (numberedRoot label settings names).openPath files (settings.manifest side) =
      .opened (.ofText (manifestText names side)) := openPath_numberedRoot hpaths side
  cases side with
  | interfaces =>
    have hcache : ∀ c ∈ cache.toList, 33 ≤ c.toNat ∧ c.toNat ≤ 126 := by simp [cache]
    have hnone : ∀ name ∈ ([] : List String),
        name ≠ "" ∧ ∀ c ∈ name.toList, Text.isBlank c = false := fun name hname => by cases hname
    -- its one line is not ended, so it is what comes after no lines
    rw [← String.empty_append (s := manifestText names .interfaces)] at hopen
    exact Manifest.names_listingsOf_written hopen hnone
      fun c hc => Text.isBlank_of_visible (hcache c hc)
  | implementations =>
    have hnames : ∀ name ∈ listedTypes names .implementations,
        name ≠ "" ∧ ∀ c ∈ name.toList, Text.isBlank c = false := by
      intro name hname
      obtain ⟨number, -, rfl⟩ := List.mem_map.1 hname
      refine ⟨fun hempty => ?_, fun c hc => not_isBlank_numberedType hc⟩
      have hchars := congrArg String.toList hempty
      rw [toList_numberedType] at hchars
      simp at hchars
    have hnone : ∀ c ∈ "".toList, Text.isBlank c = false := fun c hc => by cases hc
    -- all its lines are ended, so nothing comes after them
    rw [← String.append_empty (s := manifestText names .implementations)] at hopen
    obtain ⟨hreadable, hlisted⟩ := Manifest.names_listingsOf_written hopen hnames hnone
    exact ⟨hreadable, hlisted.trans (List.append_nil _)⟩

/-! ## What is found -/

/-- The plugins of one side. -/
def numberedPlugins (settings : Settings) (names : List String) : Side → List Plugin
  | .interfaces =>
    [.ofMarker cachePoint { name := "cache" } (cache.startsWith settings.standardNamespace)]
  | .implementations => names.zipIdx.map fun entry =>
      .ofMarker (namedImplementation entry.1 entry.2) { name := entry.1 }
        ((numberedType entry.2).startsWith settings.standardNamespace)

/-- The plugins of both sides. -/
def numberedCandidates (settings : Settings) (names : List String) : Candidates where
  interfaces := numberedPlugins settings names .interfaces
  implementations := numberedPlugins settings names .implementations

theorem names_numberedPlugins (settings : Settings) (names : List String) :
    (numberedPlugins settings names .implementations).map (·.name) = names := by
  unfold numberedPlugins
  rw [List.map_map]
  exact List.zipIdx_map_fst 0 names

theorem length_numberedPlugins (settings : Settings) (names : List String) :
    (numberedPlugins settings names .implementations).length = names.length := by
  unfold numberedPlugins
  rw [List.length_map, List.length_zipIdx]

/-- A name is declared by the types of the numbers at which it stands. -/
theorem ownersOf_numberedPlugins (settings : Settings) (names : List String) (name : String) :
    Coherence.ownersOf (numberedPlugins settings names .implementations) name =
      ((List.range names.length).filter fun i => names[i]? = some name).map numberedType := by
  -- the plugin of a number has the name that stands at the number
  have hsame : ∀ entry ∈ names.zipIdx,
      decide (entry.1 = name) = decide (names[entry.2]? = some name) := by
    intro entry hentry
    have hget : names[entry.2]? = some entry.1 := List.mem_zipIdx_iff_getElem?.1 hentry
    rw [decide_eq_decide, hget, Option.some.injEq]
  rw [range_eq_zipIdx, List.filter_map, List.map_map]
  unfold Coherence.ownersOf numberedPlugins
  rw [List.filter_map, List.map_map]
  exact congrArg _ (List.filter_congr hsame)

section Discovered

variable (hpaths : settings.interfaceManifest ≠ settings.implementationManifest)
include hpaths

/-- The names that the loader finds in the manifest of one side. -/
theorem names_listings_numbered (side : Side) :
    ((numberedLoader label settings names).discovery.listings files side).map (·.typeName) =
      listedTypes names side := by
  have hroots : (numberedLoader label settings names).discovery.listings files side =
      Manifest.listingsOf files (settings.manifest side) (numberedRoot label settings names) :=
    List.flatMap_singleton _ _
  rw [hroots]
  exact (names_listingsOf_numbered hpaths side).2

/-- Both passes are clear: the manifests can be read, and all types link. -/
theorem clear_numbered (side : Side) :
    (numberedLoader label settings names).discovery.Clear files side := by
  refine ⟨fun root hroot => ?_, fun listing hlisting => ?_⟩
  · rw [List.mem_singleton.1 hroot]
    exact (names_listingsOf_numbered hpaths side).1
  · have hlisted : listing.typeName ∈ listedTypes names side := by
      rw [← names_listings_numbered hpaths side]
      exact List.mem_map_of_mem hlisting
    obtain ⟨decl, hdecl, hname⟩ := exists_type_of_mem_listedTypes hlisted
    rw [← hname]
    cases side with
    | interfaces => exact ⟨decl, link_namedImplementations hdecl⟩
    | implementations => exact ⟨decl, find?_namedImplementations hdecl⟩

omit hpaths in
theorem pluginNamed?_numbered {decl : TypeDecl} (h : decl ∈ numberedTypes names) :
    (numberedLoader label settings names).discovery.pluginNamed? decl.name =
      Plugin.ofDecl? settings.standardNamespace decl :=
  Discovery.pluginNamed?_of_link _ (link_namedImplementations h)

/-- All listed types are marked, so each comes to one plugin. -/
theorem plugins_numbered (side : Side) :
    ((numberedLoader label settings names).discovery.passResult files side).plugins =
      numberedPlugins settings names side := by
  have hnames : ((numberedLoader label settings names).discovery.listings files side).map
      (·.typeName) = listedTypes names side := names_listings_numbered hpaths side
  -- no name is listed twice, so nothing is passed over
  have hfirsts : Listing.firsts []
      ((numberedLoader label settings names).discovery.listings files side) =
        (numberedLoader label settings names).discovery.listings files side := by
    refine Listing.firsts_eq_self ?_ fun _ _ => List.not_mem_nil
    rw [hnames]
    exact nodup_listedTypes names side
  rw [Discovery.passResult, hfirsts, Discovery.plugins_passOf, hnames]
  cases side with
  | interfaces =>
    have hplugin : (numberedLoader label settings names).discovery.pluginNamed? cache =
        Plugin.ofDecl? settings.standardNamespace cachePoint :=
      pluginNamed?_numbered (cachePoint_mem names)
    unfold listedTypes
    rw [List.filterMap_cons, hplugin]
    rfl
  | implementations =>
    unfold listedTypes numberedPlugins
    rw [range_eq_zipIdx, List.map_map, List.filterMap_map]
    refine List.filterMap_eq_map_iff_forall_eq_some.2 fun entry hentry => ?_
    exact pluginNamed?_numbered (namedImplementation_mem hentry)

theorem candidates_numbered :
    (numberedLoader label settings names).discovery.candidates files =
      numberedCandidates settings names := by
  unfold Discovery.candidates numberedCandidates
  rw [plugins_numbered hpaths, plugins_numbered hpaths]

omit hpaths in
/-- No rule but the one on the names of the implementations can be broken. -/
theorem holds_numbered {rule : Coherence.Rule} (hrule : rule ≠ .uniqueNames .implementations) :
    rule.Holds (namedImplementations names) (numberedCandidates settings names) := by
  cases rule with
  | interfacesAreInterfaces =>
    intro plugin hplugin
    rw [List.mem_singleton.1 hplugin]
    rfl
  | implementationsAreConcrete =>
    intro plugin hplugin
    obtain ⟨entry, -, rfl⟩ := List.mem_map.1 hplugin
    rfl
  | uniqueNames side =>
    cases side with
    | interfaces => exact List.nodup_singleton _
    | implementations => exact absurd rfl hrule
  | implementsExtensionPoint =>
    intro plugin hplugin
    obtain ⟨entry, -, rfl⟩ := List.mem_map.1 hplugin
    exact Catalog.extensionPoints_ne_nil_iff.2
      ⟨cache, isExtensionPoint_cache names, inherits_cache entry.1 entry.2⟩

omit hpaths in
theorem violations_numbered (settings : Settings) (names : List String) :
    Coherence.violations (namedImplementations names) Coherence.Rule.standard
        (numberedCandidates settings names) =
      Coherence.Rule.repeatedNames (numberedPlugins settings names .implementations) := by
  have hkept : ∀ rule : Coherence.Rule, rule ≠ .uniqueNames .implementations →
      rule.violations (namedImplementations names) (numberedCandidates settings names) = [] :=
    fun rule hrule => Coherence.Rule.violations_eq_nil_iff.2 (holds_numbered hrule)
  -- the standard rules one after the other; only the one left out of `hkept` reports anything
  unfold Coherence.violations Coherence.Rule.standard
  rw [List.flatMap_cons, List.flatMap_cons, List.flatMap_cons, List.flatMap_cons,
    List.flatMap_cons, List.flatMap_nil, hkept _ (by decide), hkept _ (by decide),
    hkept _ (by decide), hkept .implementsExtensionPoint (by decide)]
  exact List.append_nil _

end Discovered

/-- A report of repeated names lists each of them once, with the types of all its numbers. -/
theorem exists_repeated_numbered (settings : Settings) (names : List String) :
    ∃ repeated : List String, repeated.Pairwise (· < ·) ∧
      (∀ name, name ∈ repeated ↔ 2 ≤ names.count name) ∧
      (FaultReport.declarations (Coherence.Rule.repeatedNames
        (numberedPlugins settings names .implementations))).faults = repeated.map fun name =>
          ⟨.nameNotUnique, name ::
            ((List.range names.length).filter fun i => names[i]? = some name).map
              numberedType⟩ := by
  obtain ⟨repeated, ⟨hincreasing, hmem⟩, hfaults⟩ :=
    Coherence.exists_repeated (numberedPlugins settings names .implementations)
  refine ⟨repeated, hincreasing, fun name => ?_, ?_⟩
  · have hcount : ((numberedPlugins settings names .implementations).filter
        (·.name = name)).length = names.count name := by
      have hlength := Coherence.length_ownersOf (numberedPlugins settings names .implementations)
        name
      rw [names_numberedPlugins, Coherence.ownersOf, List.length_map] at hlength
      exact hlength
    rw [hmem, hcount]
  · rw [FaultReport.faults_declarations_of_increasing (Coherence.Rule.increasing_repeatedNames _),
      hfaults]
    exact List.map_congr_left fun name _ => by rw [ownersOf_numberedPlugins]

/-! ## Looking up the extension point -/

/-- Where the names are distinct, all implementations are found under the extension point, in the
order of the bytes of their names. -/
theorem implementing_numbered (settings : Settings) (hnodup : names.Nodup) :
    ∃ found, (Registry.ofPlugins (numberedPlugins settings names .implementations)).implementing
        (namedImplementations names) cache = .ok found ∧
      found.map (·.name) = names.mergeSort fun a b => bytesOf a ≤ bytesOf b := by
  have hpoint := isExtensionPoint_cache names
  have hplugins : ((numberedPlugins settings names .implementations).map (·.name)).Nodup := by
    rw [names_numberedPlugins]
    exact hnodup
  refine ⟨_, Registry.implementing_of_isExtensionPoint hpoint, ?_⟩
  generalize hfound : List.filter _ _ = found
  have himplementing := Registry.implementing_of_isExtensionPoint
    (r := .ofPlugins (numberedPlugins settings names .implementations)) hpoint
  rw [hfound] at himplementing
  have hincreasing : (found.map (·.name)).Pairwise (· < ·) :=
    Registry.pairwise_names_implementing hpoint himplementing
  have hmem : ∀ plugin, plugin ∈ found ↔
      plugin ∈ numberedPlugins settings names .implementations := by
    intro plugin
    rw [Registry.mem_implementing_iff hpoint himplementing,
      Registry.get?_ofPlugins_eq_some_iff hplugins, and_iff_left rfl, and_iff_left_iff_imp]
    intro hplugin
    obtain ⟨entry, -, rfl⟩ := List.mem_map.1 hplugin
    exact inherits_cache entry.1 entry.2
  have hperm : (found.map (·.name)).Perm names := by
    have hdistinct : (found.map (·.name)).Nodup := hincreasing.imp fun hlt => ne_of_lt hlt
    refine (List.perm_ext_iff_of_nodup hdistinct hnodup).2 fun name => ?_
    conv_rhs => rw [← names_numberedPlugins settings names]
    simp only [List.mem_map, hmem]
  have hbytes : (fun a b : String => decide (bytesOf a ≤ bytesOf b)) =
      fun a b => decide (a ≤ b) := by
    funext a b
    rw [decide_eq_decide]
    exact bytesOf_le_iff
  rw [hbytes]
  -- both lists are in order and have the same members
  refine List.Perm.eq_of_pairwise (fun a b _ _ hle hge => le_antisymm hle hge)
    (hincreasing.imp le_of_lt) (List.pairwise_mergeSort' (· ≤ ·) names) ?_
  exact hperm.trans (List.mergeSort_perm names _).symm

end Samples

namespace Loader

open Coherence Samples

variable {label : String} {settings : Settings} {names : List String} {files : Files}

section Outcome

variable (hpaths : settings.interfaceManifest ≠ settings.implementationManifest)
include hpaths

theorem dryRun_numbered_of_nodup (hnodup : names.Nodup) :
    ∃ survey, ((numberedLoader label settings names).dryRun files).outcome = .ok survey ∧
      survey.implementations = numberedPlugins settings names .implementations := by
  have hholds : ∀ rule ∈ Rule.standard, rule.Holds (namedImplementations names)
      (numberedCandidates settings names) := by
    intro rule _
    by_cases hrule : rule = .uniqueNames .implementations
    · subst hrule
      have hnames := names_numberedPlugins settings names
      rw [← hnames] at hnodup
      exact hnodup
    · exact holds_numbered hrule
  have hcandidates : (numberedLoader label settings names).discovery.candidates files = _ :=
    candidates_numbered hpaths
  rw [← hcandidates] at hholds
  exact ⟨_, Discovery.outcome_survey_of_holds (clear_numbered hpaths) hholds,
    plugins_numbered hpaths .implementations⟩

theorem dryRun_numbered_of_not_nodup (hrepeated : ¬names.Nodup) :
    ((numberedLoader label settings names).dryRun files).outcome =
      .error (.declarations
        (Rule.repeatedNames (numberedPlugins settings names .implementations))) := by
  have hbroken : ¬∀ rule ∈ Rule.standard, rule.Holds (namedImplementations names)
      (numberedCandidates settings names) := by
    intro hholds
    have hnodup := hholds _ (Rule.mem_standard (.uniqueNames .implementations))
    have hnames := names_numberedPlugins settings names
    rw [← hnames] at hrepeated
    exact hrepeated hnodup
  have hcandidates : (numberedLoader label settings names).discovery.candidates files = _ :=
    candidates_numbered hpaths
  rw [← hcandidates] at hbroken
  rw [← violations_numbered, ← hcandidates]
  exact Discovery.outcome_survey_of_not_holds (clear_numbered hpaths) hbroken

end Outcome

/-- A load of numbered implementations succeeds exactly when their names are distinct. It then
publishes all of them, and under the extension point they are found in the order of the bytes of
their names. A load that fails publishes nothing and reports each repeated name once, together with
the types of all the numbers at which it stands. -/
theorem reload_numbered (label : String) (settings : Settings) (names : List String)
    (files : Files) (hpaths : settings.interfaceManifest ≠ settings.implementationManifest) :
    let l := numberedLoader label settings names
    ((∃ report, (l.reload files).2.outcome = .ok report) ↔ names.Nodup) ∧
      (∀ report, (l.reload files).2.outcome = .ok report →
        report.implementations = names.length ∧
          (l.reload files).1.published.implementations.size = names.length ∧
          ∃ found, (l.reload files).1.implementing cache = .ok found ∧
            found.map (·.name) = names.mergeSort fun a b => bytesOf a ≤ bytesOf b) ∧
      ∀ report, (l.reload files).2.outcome = .error report →
        report.code = .incoherentDeclarations ∧ (l.reload files).1.published = {} ∧
          ∃ repeated : List String, repeated.Pairwise (· < ·) ∧
            (∀ name, name ∈ repeated ↔ 2 ≤ names.count name) ∧
            report.faults = repeated.map fun name =>
              ⟨.nameNotUnique, name ::
                ((List.range names.length).filter fun i => names[i]? = some name).map
                  numberedType⟩ := by
  intro l
  by_cases hnodup : names.Nodup
  · obtain ⟨survey, hrun, hfound⟩ : ∃ survey, (l.dryRun files).outcome = .ok survey ∧
        survey.implementations = numberedPlugins settings names .implementations :=
      dryRun_numbered_of_nodup hpaths hnodup
    obtain ⟨hloader, hreport⟩ := reload_of_ok hrun
    have hpublished : (l.reload files).1.published.implementations =
        .ofPlugins (numberedPlugins settings names .implementations) := by
      rw [hloader, ← hfound]
      rfl
    have hcatalog : (l.reload files).1.catalog = namedImplementations names := by
      rw [hloader]
      rfl
    refine ⟨iff_of_true ⟨_, hreport⟩ hnodup, fun report h => ⟨?_, ?_, ?_⟩, fun report h => ?_⟩
    · rw [hreport] at h
      rw [← Except.ok.inj h, reportOf, hfound]
      exact length_numberedPlugins settings names
    · rw [hpublished, Registry.size_ofPlugins, names_numberedPlugins, hnodup.dedup]
    · rw [implementing, hpublished, hcatalog]
      exact implementing_numbered settings hnodup
    · rw [hreport] at h
      cases h
  · have hrun : (l.dryRun files).outcome = .error _ := dryRun_numbered_of_not_nodup hpaths hnodup
    obtain ⟨hloader, hreport⟩ := reload_of_error hrun
    refine ⟨iff_of_false ?_ hnodup, fun report h => ?_, fun report h => ?_⟩
    · rintro ⟨report, h⟩
      rw [hreport] at h
      cases h
    · rw [hreport] at h
      cases h
    · rw [hreport] at h
      rw [← Except.error.inj h, hloader]
      exact ⟨rfl, rfl, exists_repeated_numbered settings names⟩

/-- Of the names `b` and `a` both are found in order, and a second `b` fails the load. -/
theorem reload_numbered_few :
    Settings.standard.interfaceManifest ≠ Settings.standard.implementationManifest ∧
      (∃ found, ((numberedLoader "prop" .standard ["b", "a"]).reload {}).1.implementing cache =
          .ok found ∧ found.map (·.name) = ["a", "b"]) ∧
      ∃ report, ((numberedLoader "prop" .standard ["b", "a", "b"]).reload {}).2.outcome =
          .error report ∧
        report.faults = [⟨.nameNotUnique, ["b", "acme.Impl0", "acme.Impl2"]⟩] := by
  have hpaths : Settings.standard.interfaceManifest ≠ Settings.standard.implementationManifest := by
    decide
  refine ⟨hpaths, ?_, ?_⟩
  · obtain ⟨hiff, hok, -⟩ := reload_numbered "prop" .standard ["b", "a"] {} hpaths
    obtain ⟨report, hreport⟩ := hiff.2 (by decide)
    obtain ⟨-, -, found, hfound, hnames⟩ := hok report hreport
    have hsorted : (["b", "a"].mergeSort fun a b => bytesOf a ≤ bytesOf b) = ["a", "b"] := by cbv
    exact ⟨found, hfound, hnames.trans hsorted⟩
  · obtain ⟨hiff, -, herror⟩ := reload_numbered "prop" .standard ["b", "a", "b"] {} hpaths
    cases hreport : ((numberedLoader "prop" .standard ["b", "a", "b"]).reload {}).2.outcome with
    | ok report => exact absurd (hiff.1 ⟨report, hreport⟩) (by decide)
    | error report =>
      obtain ⟨-, -, repeated, hincreasing, hmem, hfaults⟩ := herror report hreport
      have hb : repeated = ["b"] := by
        have honly : ∀ name, name ∈ repeated ↔ name ∈ ["b"] := by
          intro name
          rw [hmem, List.mem_singleton]
          by_cases hb : name = "b"
          · subst hb
            exact iff_of_true (by decide) rfl
          · have hcount : ["b", "a", "b"].count name = ["a"].count name := by
              simp [List.count_cons, Ne.symm hb]
            have hle : ["a"].count name ≤ 1 := List.count_le_length
            exact iff_of_false (by omega) hb
        have hperm := (List.perm_ext_iff_of_nodup (hincreasing.imp fun hlt => ne_of_lt hlt)
          (List.nodup_singleton "b")).2 honly
        exact List.perm_singleton.1 hperm
      subst hb
      exact ⟨report, rfl, hfaults.trans (by cbv)⟩

end Loader

end PluginDiscovery
