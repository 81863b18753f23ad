import Mathlib.Data.List.Forall2
import PluginDiscovery.Proofs.Passes

/-!
# How a pass sorts names

A pass that comes to its end has sorted all names that are listed: those that link and are marked
have a plugin each, those that do not link have a fault each, and the others link and are not
marked. Only the first listing of a name counts, for the order and for the position in a fault.
`Discovery.Sorts` says so without the loop, by the names in the order of their first listings
(`List.eraseDups`) and by the first listing of each (`List.find?`).
-/

namespace PluginDiscovery

/-! ## First listings -/

namespace Listing

/-- The names of first listings are the listed names, each where it is listed first. -/
theorem names_firsts (seen : List String) (listings : List Listing) :
    (firsts seen listings).map (·.typeName) =
      ((listings.map (·.typeName)).filter (· ∉ seen)).eraseDups := by
  induction listings generalizing seen with
  | nil => rfl
  | cons listing rest ih =>
    rw [List.map_cons, List.filter_cons]
    unfold firsts
    by_cases hseen : listing.typeName ∈ seen
    · have hout : ¬decide (listing.typeName ∉ seen) = true := by simpa using hseen
      rw [if_pos hseen, if_neg hout]
      exact ih seen
    · have hin : decide (listing.typeName ∉ seen) = true := by simpa using hseen
      rw [if_neg hseen, if_pos hin, List.map_cons, ih, List.eraseDups_cons, List.filter_filter]
      refine congrArg (fun names : List String => listing.typeName :: names.eraseDups) ?_
      refine List.filter_congr fun name _ => ?_
      rw [Bool.eq_iff_iff]
      simp [not_or]

/-- A first listing is the first that has its name. -/
theorem find?_of_mem_firsts {seen : List String} {listings : List Listing} {listing : Listing}
    (h : listing ∈ firsts seen listings) :
    listings.find? (·.typeName = listing.typeName) = some listing := by
  induction listings generalizing seen with
  | nil => cases h
  | cons first rest ih =>
    unfold firsts at h
    by_cases hseen : first.typeName ∈ seen
    · rw [if_pos hseen] at h
      have hne : first.typeName ≠ listing.typeName := by
        intro heq
        exact not_mem_seen_of_mem_firsts h (heq ▸ hseen)
      rw [List.find?_cons_of_neg (by simpa using hne)]
      exact ih h
    · rw [if_neg hseen] at h
      rcases List.mem_cons.1 h with rfl | h
      · rw [List.find?_cons_of_pos (by simp)]
      · have hne : first.typeName ≠ listing.typeName := by
          intro heq
          exact not_mem_seen_of_mem_firsts h (heq ▸ List.mem_cons_self)
        rw [List.find?_cons_of_neg (by simpa using hne)]
        exact ih h

end Listing

/-- What is found for some listings stands in relation to the names of these listings. -/
theorem forall₂_filterMap {β : Type} {R : String → β → Prop} {keep : String → Bool}
    {f : Listing → Option β} {listings : List Listing}
    (hkeep : ∀ listing ∈ listings, (f listing).isSome = keep listing.typeName)
    (hfound : ∀ listing ∈ listings, ∀ found, f listing = some found → R listing.typeName found) :
    List.Forall₂ R ((listings.map (·.typeName)).filter keep) (listings.filterMap f) := by
  induction listings with
  | nil => exact .nil
  | cons listing rest ih =>
    have hfirst := hkeep listing List.mem_cons_self
    have hrest := ih (fun other hother => hkeep other (List.mem_cons_of_mem _ hother))
      (fun other hother => hfound other (List.mem_cons_of_mem _ hother))
    rw [List.map_cons, List.filter_cons, List.filterMap_cons, ← hfirst]
    cases hf : f listing with
    | none => exact hrest
    | some found => exact .cons (hfound listing List.mem_cons_self found hf) hrest

namespace Discovery

variable (d : Discovery)

/-- A name links to a marked type, and the plugin is that of the type and its marker. -/
def Describes (name : String) (plugin : Plugin) : Prop :=
  ∃ decl marker, d.catalog.link name = .ok decl ∧ decl.marker = some marker ∧
    plugin = .ofMarker decl marker (decl.name.startsWith d.settings.standardNamespace)

/-- A name is declared but does not link, and the fault tells where it is listed first and what is
missing. -/
def Excuses (listings : List Listing) (name : String) (fault : Fault) : Prop :=
  ∃ listing missing, listings.find? (·.typeName = name) = some listing ∧
    d.catalog.link name = .error (.missingDependency name missing) ∧
    fault = ⟨.missingDependency, [name, listing.position, missing]⟩

/-- A name links to a type without a marker. -/
def Plain (name : String) : Prop := ∃ decl, d.catalog.link name = .ok decl ∧ decl.marker = none

/-- A pass has sorted the names that are listed, each once and by its first listing. -/
structure Sorts (side : Side) (listings : List Listing) (pass : Pass) : Prop where
  /-- The plugins are those of the names that link to marked types. -/
  plugins : List.Forall₂ d.Describes
    ((listings.map (·.typeName)).eraseDups.filter d.catalog.offers) pass.plugins
  /-- The faults are those of the declared names that do not link. -/
  skipped : List.Forall₂ (d.Excuses listings)
    ((listings.map (·.typeName)).eraseDups.filter d.catalog.lacks) pass.skipped
  /-- No extension point is skipped. -/
  interfaces : side = .interfaces → pass.skipped = []
  /-- A name without a plugin and without a fault is that of a type without a marker. -/
  others : ∀ name ∈ listings.map (·.typeName),
    (name ∉ pass.plugins.map (·.owner.name) ∧ name ∉ pass.skipped.map (·.arg 0)) ↔ d.Plain name
  /-- No name has two plugins, two faults, or one of each. -/
  once : (pass.plugins.map (·.owner.name) ++ pass.skipped.map (·.arg 0)).Nodup

variable {d}

theorem missingDependency_name {name other missing : String}
    (h : d.catalog.link name = .error (.missingDependency other missing)) : other = name := by
  cases hfind : d.catalog.find? name with
  | none =>
    rw [Catalog.link_of_find?_none hfind] at h
    cases h
  | some decl =>
    rcases Catalog.link_of_find?_some hfind with hlink | ⟨_, hlink⟩
    · rw [hlink] at h
      cases h
    · rw [hlink] at h
      cases h
      rfl

/-- At a listing that does not end the pass, what is skipped is what does not link. -/
theorem isSome_skippedOf?_of_admits {side : Side} {listing : Listing}
    (h : d.Admits side listing.typeName) :
    (d.skippedOf? side listing).isSome = d.catalog.lacks listing.typeName := by
  cases side with
  | implementations => exact isSome_skippedOf? listing
  | interfaces =>
    obtain ⟨decl, hlink⟩ := h
    simp [skippedOf?, Catalog.lacks, hlink]

theorem describes_of_pluginOf? {listing : Listing} {plugin : Plugin}
    (h : d.pluginOf? listing = some plugin) : d.Describes listing.typeName plugin := by
  obtain ⟨decl, marker, hlink, hmarker, hplugin⟩ := d.pluginOf?_eq_some_iff.1 h
  exact ⟨decl, marker, hlink, hmarker, hplugin.symm⟩

theorem excuses_of_skippedOf? {side : Side} {listings : List Listing} {listing : Listing}
    {fault : Fault} (hfirst : listings.find? (·.typeName = listing.typeName) = some listing)
    (h : d.skippedOf? side listing = some fault) :
    d.Excuses listings listing.typeName fault := by
  unfold skippedOf? at h
  split at h
  · next other missing hlink =>
    cases h
    obtain rfl := missingDependency_name hlink
    exact ⟨listing, missing, hfirst, hlink, rfl⟩
  · cases h

theorem names_of_forall₂_excuses {listings : List Listing} {names : List String}
    {faults : List Fault} (h : List.Forall₂ (d.Excuses listings) names faults) :
    faults.map (·.arg 0) = names := by
  have hsame : List.Forall₂ (· = ·) names (faults.map (·.arg 0)) := by
    refine List.forall₂_map_right_iff.2 (h.imp fun name fault hexcuses => ?_)
    obtain ⟨listing, missing, -, -, rfl⟩ := hexcuses
    rfl
  rw [List.forall₂_eq_eq_eq] at hsame
  exact hsame.symm

theorem offers_and_lacks (name : String) :
    ¬(d.catalog.offers name = true ∧ d.catalog.lacks name = true) := by
  unfold Catalog.offers Catalog.lacks
  cases d.catalog.link name <;> simp

/-- A name that a pass admits is of one of three kinds. -/
theorem plain_iff_of_admits {side : Side} {name : String} (h : d.Admits side name) :
    (d.catalog.offers name = false ∧ d.catalog.lacks name = false) ↔ d.Plain name := by
  unfold Catalog.offers Catalog.lacks Plain
  cases hlink : d.catalog.link name with
  | ok decl => simp [TypeDecl.isMarked]
  | error error =>
    cases error with
    | missingDependency other missing => simp
    | notFound other =>
      cases side with
      | interfaces =>
        obtain ⟨decl, hdecl⟩ := h
        rw [hlink] at hdecl
        cases hdecl
      | implementations =>
        obtain ⟨decl, hdecl⟩ := h
        rcases Catalog.link_of_find?_some hdecl with hok | ⟨missing, herror⟩
        · rw [hlink] at hok
          cases hok
        · rw [hlink] at herror
          cases herror

/-- What a pass makes of first listings that it admits. -/
theorem sorts_passOf {side : Side} {listings : List Listing}
    (hadmits : ∀ listing ∈ listings, d.Admits side listing.typeName) :
    d.Sorts side listings (d.passOf side (Listing.firsts [] listings)) := by
  have hnames : (Listing.firsts [] listings).map (·.typeName) =
      (listings.map (·.typeName)).eraseDups := by
    rw [Listing.names_firsts, List.filter_eq_self.2 fun name _ => by simp]
  have hlisted : ∀ listing ∈ Listing.firsts [] listings, d.Admits side listing.typeName := by
    intro listing hlisting
    have hmem : listing.typeName ∈ (Listing.firsts [] listings).map (·.typeName) :=
      List.mem_map_of_mem hlisting
    obtain ⟨other, hother, hname⟩ := List.mem_map.1 (Listing.mem_names_firsts.1 hmem).1
    exact hname ▸ hadmits other hother
  have hplugins : List.Forall₂ d.Describes
      (((Listing.firsts [] listings).map (·.typeName)).filter d.catalog.offers)
      (d.passOf side (Listing.firsts [] listings)).plugins :=
    forall₂_filterMap (fun listing _ => isSome_pluginOf? listing)
      fun listing _ plugin => describes_of_pluginOf?
  have hskipped : List.Forall₂ (d.Excuses listings)
      (((Listing.firsts [] listings).map (·.typeName)).filter d.catalog.lacks)
      (d.passOf side (Listing.firsts [] listings)).skipped :=
    forall₂_filterMap
      (fun listing hlisting => isSome_skippedOf?_of_admits (hlisted listing hlisting))
      fun listing hlisting fault =>
        excuses_of_skippedOf? (Listing.find?_of_mem_firsts hlisting)
  have howners := d.owner_names_passOf side (Listing.firsts [] listings)
  have hexcused := names_of_forall₂_excuses hskipped
  refine ⟨hnames ▸ hplugins, hnames ▸ hskipped, ?_, ?_, ?_⟩
  · rintro rfl
    refine List.filterMap_eq_nil_iff.2 fun listing _ => ?_
    unfold skippedOf?
    split
    · next h => cases h
    · rfl
  · intro name hname
    obtain ⟨listing, hlisting, rfl⟩ := List.mem_map.1 hname
    have hmem : listing.typeName ∈ (Listing.firsts [] listings).map (·.typeName) :=
      Listing.mem_names_firsts.2 ⟨hname, List.not_mem_nil⟩
    rw [howners, hexcused, List.mem_filter, List.mem_filter, and_iff_right hmem,
      and_iff_right hmem, Bool.not_eq_true, Bool.not_eq_true]
    exact plain_iff_of_admits (hadmits listing hlisting)
  · have hnodup := Listing.nodup_firsts [] listings
    rw [howners, hexcused]
    refine List.nodup_append.2 ⟨hnodup.filter _, hnodup.filter _, ?_⟩
    intro name hoffers other hlacks heq
    subst heq
    exact offers_and_lacks name ⟨(List.mem_filter.1 hoffers).2, (List.mem_filter.1 hlacks).2⟩

/-- Going through listings succeeds if none of them is at fault. -/
theorem outcome_scan_eq_ok_iff {side : Side} {listings : List Listing} {pass : Pass} :
    (d.scan side [] listings).outcome = .ok pass ↔
      d.firstFault? side listings = none ∧ d.passOf side (Listing.firsts [] listings) = pass := by
  have houtcome := d.outcome_scan side [] listings
  rw [firstFault?_firsts] at houtcome
  rw [houtcome]
  cases d.firstFault? side listings with
  | none => simp
  | some fault => simp

/-- Going through listings succeeds if and only if each of them can be admitted, and then it has
sorted the listed names. This holds of all listings, and so of those that a pass reads. -/
theorem scan_sorts_names (d : Discovery) (side : Side) :
    (∀ listings, (∃ pass, (d.scan side [] listings).outcome = .ok pass) ↔
        ∀ listing ∈ listings, d.Admits side listing.typeName) ∧
      (∀ listings pass, (d.scan side [] listings).outcome = .ok pass →
        d.Sorts side listings pass) ∧
      ∀ files pass, (d.pass files side).outcome = .ok pass →
        ∃ listings, (Manifest.read files (d.settings.manifest side) d.searchPath).outcome =
          .ok listings ∧ d.Sorts side listings pass := by
  have hsorts : ∀ listings pass, (d.scan side [] listings).outcome = .ok pass →
      d.Sorts side listings pass := by
    intro listings pass hpass
    obtain ⟨hfault, rfl⟩ := outcome_scan_eq_ok_iff.1 hpass
    exact sorts_passOf (d.firstFault?_eq_none_iff.1 hfault)
  refine ⟨fun listings => ?_, hsorts, ?_⟩
  · rw [← firstFault?_eq_none_iff]
    constructor
    · rintro ⟨pass, hpass⟩
      exact (outcome_scan_eq_ok_iff.1 hpass).1
    · intro hfault
      exact ⟨_, outcome_scan_eq_ok_iff.2 ⟨hfault, rfl⟩⟩
  · intro files pass hpass
    unfold Discovery.pass at hpass
    obtain ⟨listings, hread, hscan⟩ := Traced.outcome_andThen_eq_ok_iff.1 hpass
    refine ⟨listings, ?_, hsorts listings pass hscan⟩
    rw [Traced.outcome_mapError] at hread
    cases hlistings :
        (Manifest.read files (d.settings.manifest side) d.searchPath).outcome with
    | error fault =>
      rw [hlistings] at hread
      cases hread
    | ok others =>
      rw [hlistings] at hread
      cases hread
      rfl

end Discovery

end PluginDiscovery
