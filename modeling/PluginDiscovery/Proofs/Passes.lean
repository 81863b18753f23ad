import Mathlib.Data.List.Dedup
import PluginDiscovery.Discovery.Basic
import PluginDiscovery.Proofs.Reading

/-!
# What a pass comes to

A pass looks at the first listing of each name and passes over the others. What it makes of a
listing is told by three functions of the listing alone: the fault that ends the pass, the plugin,
and the fault of an implementation that is skipped. `outcome_scan` and `outcome_pass` put them
together: a pass fails with the first fault there is, and else it yields all plugins and all skipped
implementations, in the order of their first listings.
-/

namespace PluginDiscovery

/-! ## First listings -/

namespace Listing

/-- The listings whose name is neither among those seen before nor listed earlier. -/
def firsts (seen : List String) : List Listing → List Listing
  | [] => []
  | listing :: rest =>
    if listing.typeName ∈ seen then firsts seen rest
    else listing :: firsts (listing.typeName :: seen) rest

theorem not_mem_seen_of_mem_firsts {seen : List String} {listings : List Listing}
    {listing : Listing} (h : listing ∈ firsts seen listings) : listing.typeName ∉ seen := by
  induction listings generalizing seen with
  | nil => cases h
  | cons first rest ih =>
    unfold firsts at h
    split at h
    · exact ih h
    · next hfirst =>
      rcases List.mem_cons.1 h with rfl | h
      · exact hfirst
      · exact fun hseen => ih h (List.mem_cons_of_mem _ hseen)

/-- No name has two first listings. -/
theorem nodup_firsts (seen : List String) (listings : List Listing) :
    ((firsts seen listings).map (·.typeName)).Nodup := by
  induction listings generalizing seen with
  | nil => exact List.nodup_nil
  | cons listing rest ih =>
    unfold firsts
    split
    · exact ih seen
    · refine List.nodup_cons.2 ⟨fun hmem => ?_, ih _⟩
      obtain ⟨other, hother, hname⟩ := List.mem_map.1 hmem
      exact not_mem_seen_of_mem_firsts hother (hname ▸ List.mem_cons_self)

/-- Every listed name has a first listing, unless it was seen before. -/
theorem mem_names_firsts {seen : List String} {listings : List Listing} {name : String} :
    name ∈ (firsts seen listings).map (·.typeName) ↔
      name ∈ listings.map (·.typeName) ∧ name ∉ seen := by
  induction listings generalizing seen with
  | nil => simp [firsts]
  | cons listing rest ih =>
    unfold firsts
    split
    · next hseen =>
      rw [ih, List.map_cons, List.mem_cons]
      constructor
      · rintro ⟨hmem, hnot⟩
        exact ⟨.inr hmem, hnot⟩
      · rintro ⟨rfl | hmem, hnot⟩
        · exact absurd hseen hnot
        · exact ⟨hmem, hnot⟩
    · next hseen =>
      rw [List.map_cons, List.map_cons, List.mem_cons, List.mem_cons, ih, List.mem_cons]
      by_cases h : name = listing.typeName
      · subst h
        simp [hseen]
      · simp [h]

/-- Where no name is listed twice, all listings come first. -/
theorem firsts_eq_self {seen : List String} {listings : List Listing}
    (hnodup : (listings.map (·.typeName)).Nodup)
    (hseen : ∀ listing ∈ listings, listing.typeName ∉ seen) : firsts seen listings = listings := by
  induction listings generalizing seen with
  | nil => rfl
  | cons listing rest ih =>
    obtain ⟨hfirst, hrest⟩ := List.nodup_cons.1 hnodup
    unfold firsts
    rw [if_neg (hseen listing List.mem_cons_self)]
    refine congrArg (List.cons listing) (ih hrest fun other hother hmem => ?_)
    rcases List.mem_cons.1 hmem with heq | hmem
    · exact hfirst (List.mem_map.2 ⟨other, hother, heq⟩)
    · exact hseen other (List.mem_cons_of_mem _ hother) hmem

theorem perm_names_firsts (listings : List Listing) :
    ((firsts [] listings).map (·.typeName)).Perm (listings.map (·.typeName)).dedup := by
  refine (List.perm_ext_iff_of_nodup (nodup_firsts _ _) (List.nodup_dedup _)).2 fun name => ?_
  rw [mem_names_firsts, List.mem_dedup]
  exact and_iff_left List.not_mem_nil

/-- What only depends on the name, and is nothing for names seen before, is found first at a first
listing. -/
theorem findSome?_firsts {β : Type} {f : Listing → Option β} {seen : List String}
    (hname : ∀ a b : Listing, a.typeName = b.typeName → f a = none → f b = none)
    (listings : List Listing) (hseen : ∀ a ∈ listings, a.typeName ∈ seen → f a = none) :
    (firsts seen listings).findSome? f = listings.findSome? f := by
  induction listings generalizing seen with
  | nil => rfl
  | cons listing rest ih =>
    have hrest : ∀ a ∈ rest, a.typeName ∈ seen → f a = none := fun a ha =>
      hseen a (List.mem_cons_of_mem _ ha)
    unfold firsts
    split
    · next hmem =>
      rw [ih hrest, List.findSome?_cons, hseen listing List.mem_cons_self hmem]
    · rw [List.findSome?_cons, List.findSome?_cons]
      cases hf : f listing with
      | some value => rfl
      | none =>
        refine ih fun a ha hmem => ?_
        rcases List.mem_cons.1 hmem with heq | hmem
        · exact hname listing a heq.symm hf
        · exact hrest a ha hmem

/-- Which listings come first only depends on which of their names have been seen. -/
theorem firsts_congr {seen seen' : List String} {listings : List Listing}
    (h : ∀ listing ∈ listings, (listing.typeName ∈ seen ↔ listing.typeName ∈ seen')) :
    firsts seen listings = firsts seen' listings := by
  induction listings generalizing seen seen' with
  | nil => rfl
  | cons listing rest ih =>
    have hfirst := h listing List.mem_cons_self
    have hrest : ∀ other ∈ rest, (other.typeName ∈ seen ↔ other.typeName ∈ seen') := by
      intro other hother
      exact h other (List.mem_cons_of_mem _ hother)
    unfold firsts
    by_cases hseen : listing.typeName ∈ seen
    · rw [if_pos hseen, if_pos (hfirst.1 hseen)]
      exact ih hrest
    · rw [if_neg hseen, if_neg fun hseen' => hseen (hfirst.2 hseen')]
      refine congrArg (List.cons listing) (ih fun other hother => ?_)
      rw [List.mem_cons, List.mem_cons, hrest other hother]

/-- Names that are left out do not bear on which listings of the other names come first. -/
theorem firsts_filter (keep : String → Bool) (seen : List String) (listings : List Listing) :
    firsts seen (listings.filter (keep ·.typeName)) =
      (firsts seen listings).filter (keep ·.typeName) := by
  induction listings generalizing seen with
  | nil => rfl
  | cons listing rest ih =>
    cases hkeep : keep listing.typeName with
    | true =>
      rw [List.filter_cons, if_pos hkeep]
      unfold firsts
      by_cases hseen : listing.typeName ∈ seen
      · rw [if_pos hseen, if_pos hseen, ih]
      · rw [if_neg hseen, if_neg hseen, ih, List.filter_cons, if_pos hkeep]
    | false =>
      have hout : ¬keep listing.typeName = true := by
        rw [hkeep]
        exact Bool.false_ne_true
      rw [List.filter_cons, if_neg hout]
      conv_rhs => unfold firsts
      by_cases hseen : listing.typeName ∈ seen
      · rw [if_pos hseen, ih]
      · -- the name is seen now, but no listing that is kept has it
        rw [if_neg hseen, List.filter_cons, if_neg hout, ← ih]
        refine firsts_congr fun other hother => ?_
        have hother := (List.mem_filter.1 hother).2
        have hne : other.typeName ≠ listing.typeName := by
          intro heq
          rw [heq] at hother
          exact hout hother
        rw [List.mem_cons, or_iff_right hne]

end Listing

namespace Discovery

variable (d : Discovery)

/-! ## What becomes of a listing -/

/-- The fault that ends the pass at a listing. -/
def faultOf? (side : Side) (listing : Listing) : Option Fault :=
  match d.catalog.link listing.typeName, side with
  | .error (.missingDependency _ _), .implementations => none
  | .error error, _ => some (unresolved listing error)
  | .ok _, _ => none

/-- The plugin of a listing. -/
def pluginOf? (listing : Listing) : Option Plugin :=
  match d.catalog.link listing.typeName with
  | .ok decl => Plugin.ofDecl? d.settings.standardNamespace decl
  | .error _ => none

/-- The fault of a listing that is skipped. -/
def skippedOf? (side : Side) (listing : Listing) : Option Fault :=
  match d.catalog.link listing.typeName, side with
  | .error (.missingDependency _ missing), .implementations => some (skippedFor listing missing)
  | _, _ => none

/-- A pass goes on at a listed name: it links or, for an implementation, is declared at least. -/
def Admits : Side → String → Prop
  | .interfaces, name => ∃ decl, d.catalog.link name = .ok decl
  | .implementations, name => ∃ decl, d.catalog.find? name = some decl

theorem faultOf?_eq_none_iff {side : Side} {listing : Listing} :
    d.faultOf? side listing = none ↔ d.Admits side listing.typeName := by
  unfold faultOf?
  cases hfind : d.catalog.find? listing.typeName with
  | none =>
    rw [Catalog.link_of_find?_none hfind]
    cases side <;> simp [Admits, hfind, Catalog.link_of_find?_none hfind]
  | some decl =>
    rcases Catalog.link_of_find?_some hfind with hlink | ⟨missing, hlink⟩ <;>
      cases side <;> simp [Admits, hfind, hlink]

theorem faultOf?_eq_some {side : Side} {listing : Listing} {fault : Fault}
    (h : d.faultOf? side listing = some fault) :
    ∃ error, d.catalog.link listing.typeName = .error error ∧ fault = unresolved listing error := by
  unfold faultOf? at h
  cases hlink : d.catalog.link listing.typeName with
  | ok decl => cases side <;> simp [hlink] at h
  | error error =>
    refine ⟨error, rfl, ?_⟩
    cases error <;> cases side <;> simp_all

/-- The fault of the first listing at which the pass ends. -/
def firstFault? (side : Side) (listings : List Listing) : Option Fault :=
  listings.findSome? (d.faultOf? side)

theorem firstFault?_cons (side : Side) (listing : Listing) (rest : List Listing) :
    d.firstFault? side (listing :: rest) =
      (d.faultOf? side listing).or (d.firstFault? side rest) := by
  unfold firstFault?
  rw [List.findSome?_cons]
  cases d.faultOf? side listing <;> rfl

theorem firstFault?_append (side : Side) (listings listings' : List Listing) :
    d.firstFault? side (listings ++ listings') =
      (d.firstFault? side listings).or (d.firstFault? side listings') :=
  List.findSome?_append

theorem firstFault?_eq_none_iff {side : Side} {listings : List Listing} :
    d.firstFault? side listings = none ↔
      ∀ listing ∈ listings, d.Admits side listing.typeName := by
  simp [firstFault?, faultOf?_eq_none_iff]

/-- The fault of resolving names the first listing at which the pass cannot go on. No earlier
listing has its name. -/
theorem firstFault?_eq_some_iff {side : Side} {listings : List Listing} {fault : Fault} :
    d.firstFault? side listings = some fault ↔
      ∃ before listing after error, listings = before ++ listing :: after ∧
        (∀ other ∈ before, d.Admits side other.typeName ∧ other.typeName ≠ listing.typeName) ∧
        ¬d.Admits side listing.typeName ∧ d.catalog.link listing.typeName = .error error ∧
        fault = unresolved listing error := by
  unfold firstFault?
  rw [List.findSome?_eq_some_iff]
  constructor
  · rintro ⟨before, listing, after, hlistings, hlisting, hbefore⟩
    have hrefused : ¬d.Admits side listing.typeName := fun hadmits => by
      rw [(d.faultOf?_eq_none_iff).2 hadmits] at hlisting
      cases hlisting
    obtain ⟨error, hlink, rfl⟩ := d.faultOf?_eq_some hlisting
    refine ⟨before, listing, after, error, hlistings, fun other hother => ?_, hrefused, hlink, rfl⟩
    have hadmits := (d.faultOf?_eq_none_iff).1 (hbefore other hother)
    exact ⟨hadmits, fun hname => hrefused (hname ▸ hadmits)⟩
  · rintro ⟨before, listing, after, error, hlistings, hbefore, hrefused, hlink, rfl⟩
    refine ⟨before, listing, after, hlistings, ?_, fun other hother =>
      (d.faultOf?_eq_none_iff).2 (hbefore other hother).1⟩
    cases hfault : d.faultOf? side listing with
    | none => exact absurd ((d.faultOf?_eq_none_iff).1 hfault) hrefused
    | some fault =>
      obtain ⟨other, hother, rfl⟩ := d.faultOf?_eq_some hfault
      rw [hlink] at hother
      rw [Except.error.inj hother]

/-- What a pass finds when one more listing comes before the others. -/
def found (side : Side) (listing : Listing) (pass : Pass) : Pass where
  plugins := (d.pluginOf? listing).toList ++ pass.plugins
  skipped := (d.skippedOf? side listing).toList ++ pass.skipped

/-- What a pass makes of first listings. -/
def passOf (side : Side) (firsts : List Listing) : Pass where
  plugins := firsts.filterMap d.pluginOf?
  skipped := firsts.filterMap (d.skippedOf? side)

theorem passOf_cons (side : Side) (listing : Listing) (rest : List Listing) :
    d.passOf side (listing :: rest) = d.found side listing (d.passOf side rest) := by
  unfold passOf found
  rw [List.filterMap_cons, List.filterMap_cons]
  cases d.pluginOf? listing <;> cases d.skippedOf? side listing <;> rfl

/-! ## Scanning -/

/-- A name that was seen before changes nothing. -/
theorem outcome_scan_cons_of_mem {side : Side} {seen : List String} {listing : Listing}
    (hseen : listing.typeName ∈ seen) (rest : List Listing) :
    (d.scan side seen (listing :: rest)).outcome = (d.scan side seen rest).outcome := by
  conv_lhs => unfold scan
  simp only [hseen, if_true, Traced.bind_eq]
  exact Traced.outcome_andThen_of_ok (Traced.outcome_note _) _

/-- A first listing ends the pass or adds what it comes to. -/
theorem outcome_scan_cons_of_not_mem {side : Side} {seen : List String} {listing : Listing}
    (hseen : listing.typeName ∉ seen) (rest : List Listing) :
    (d.scan side seen (listing :: rest)).outcome =
      match d.faultOf? side listing with
      | some fault => .error (.fatal fault)
      | none =>
        ((d.scan side (listing.typeName :: seen) rest).outcome).map (d.found side listing) := by
  conv_lhs => unfold scan
  unfold faultOf?
  simp only [hseen, if_false, Traced.bind_eq, Traced.pure_eq]
  cases hlink : d.catalog.link listing.typeName with
  | error error =>
    have hplugin : d.pluginOf? listing = none := by simp [pluginOf?, hlink]
    cases error with
    | notFound name => cases side <;> rfl
    | missingDependency name missing =>
      cases side with
      | interfaces => rfl
      | implementations =>
        have hfound : d.found .implementations listing = fun pass =>
            { pass with skipped := skippedFor listing missing :: pass.skipped } := by
          funext pass
          simp [found, hplugin, skippedOf?, hlink]
        rw [Traced.outcome_andThen_of_ok (Traced.outcome_warn _), Traced.outcome_andThen_ok, hfound]
  | ok decl =>
    have hskipped : d.skippedOf? side listing = none := by simp [skippedOf?, hlink]
    have hplugin : d.pluginOf? listing =
        Plugin.ofDecl? d.settings.standardNamespace decl := by simp [pluginOf?, hlink]
    cases hdecl : Plugin.ofDecl? d.settings.standardNamespace decl with
    | some plugin =>
      have hfound : d.found side listing = fun pass =>
          { pass with plugins := plugin :: pass.plugins } := by
        funext pass
        simp [found, hplugin, hdecl, hskipped]
      rw [hfound]
      cases side <;> simp only [hdecl, Traced.outcome_andThen_ok]
    | none =>
      have hfound : d.found side listing = id := by
        funext pass
        simp [found, hplugin, hdecl, hskipped]
      have hmap : ((d.scan side (listing.typeName :: seen) rest).outcome).map id =
          (d.scan side (listing.typeName :: seen) rest).outcome := by
        cases (d.scan side (listing.typeName :: seen) rest).outcome <;> rfl
      rw [hfound, hmap]
      cases side <;> simp only [hdecl, Traced.outcome_andThen_of_ok (Traced.outcome_note _)]

theorem outcome_scan (side : Side) (seen : List String) (listings : List Listing) :
    (d.scan side seen listings).outcome =
      match d.firstFault? side (Listing.firsts seen listings) with
      | some fault => .error (.fatal fault)
      | none => .ok (d.passOf side (Listing.firsts seen listings)) := by
  induction listings generalizing seen with
  | nil => rfl
  | cons listing rest ih =>
    unfold Listing.firsts
    by_cases hseen : listing.typeName ∈ seen
    · rw [d.outcome_scan_cons_of_mem hseen, if_pos hseen]
      exact ih seen
    · rw [d.outcome_scan_cons_of_not_mem hseen, if_neg hseen, ih, firstFault?_cons, passOf_cons]
      cases d.faultOf? side listing with
      | some fault => rfl
      | none =>
        rw [Option.none_or]
        cases d.firstFault? side (Listing.firsts (listing.typeName :: seen) rest) <;> rfl

/-! ## Whole passes -/

/-- All listings of the manifest of one side. -/
def listings (files : Files) (side : Side) : List Listing :=
  Manifest.allListings files (d.settings.manifest side) d.searchPath

/-- A name is listed in the manifest of one side. -/
def Lists (files : Files) (side : Side) (name : String) : Prop :=
  Manifest.Lists files (d.settings.manifest side) d.searchPath name

theorem lists_iff_mem {files : Files} {side : Side} {name : String} :
    d.Lists files side name ↔ name ∈ (d.listings files side).map (·.typeName) :=
  Manifest.lists_iff_mem

/-- The fault that ends a pass. The whole manifest is read before any name is resolved. -/
def passFault? (files : Files) (side : Side) : Option Fault :=
  (Manifest.firstFault? files (d.settings.manifest side) d.searchPath).or
    (d.firstFault? side (d.listings files side))

/-- What a pass finds if no fault ends it. -/
def passResult (files : Files) (side : Side) : Pass :=
  d.passOf side (Listing.firsts [] (d.listings files side))

/-- A name resolves alike wherever it is listed, so the first fault is at a first listing. -/
theorem firstFault?_firsts (side : Side) (listings : List Listing) :
    d.firstFault? side (Listing.firsts [] listings) = d.firstFault? side listings := by
  refine Listing.findSome?_firsts (fun a b hname ha => ?_) listings fun a _ hmem => ?_
  · rw [faultOf?_eq_none_iff] at ha ⊢
    exact hname ▸ ha
  · cases hmem

theorem outcome_pass (files : Files) (side : Side) :
    (d.pass files side).outcome =
      match d.passFault? files side with
      | some fault => .error (.fatal fault)
      | none => .ok (d.passResult files side) := by
  have hread := Manifest.outcome_read files (d.settings.manifest side) d.searchPath
  unfold pass passFault?
  cases hfault : Manifest.firstFault? files (d.settings.manifest side) d.searchPath with
  | some fault =>
    rw [hfault] at hread
    refine Traced.outcome_andThen_of_error ?_ _
    rw [Traced.outcome_mapError, hread]
    rfl
  | none =>
    rw [hfault] at hread
    have hlistings : ((Manifest.read files (d.settings.manifest side) d.searchPath).mapError
        FaultReport.fatal).outcome = .ok (d.listings files side) := by
      rw [Traced.outcome_mapError, hread]
      rfl
    rw [Traced.bind_eq, Traced.outcome_andThen_of_ok hlistings, outcome_scan, firstFault?_firsts,
      Option.none_or]
    rfl

theorem eq_passResult_of_outcome_pass {files : Files} {side : Side} {pass : Pass}
    (h : (d.pass files side).outcome = .ok pass) : pass = d.passResult files side := by
  rw [outcome_pass] at h
  cases hfault : d.passFault? files side with
  | some fault =>
    rw [hfault] at h
    cases h
  | none =>
    rw [hfault] at h
    exact (Except.ok.inj h).symm

/-! ## The plugins of a pass -/

/-- The plugin of a name. -/
def pluginNamed? (name : String) : Option Plugin :=
  match d.catalog.link name with
  | .ok decl => Plugin.ofDecl? d.settings.standardNamespace decl
  | .error _ => none

theorem pluginNamed?_of_link {name : String} {decl : TypeDecl}
    (h : d.catalog.link name = .ok decl) :
    d.pluginNamed? name = Plugin.ofDecl? d.settings.standardNamespace decl := by
  rw [pluginNamed?, h]

/-- The plugins of a pass are those of the names that are listed first. -/
theorem plugins_passOf (side : Side) (firsts : List Listing) :
    (d.passOf side firsts).plugins = (firsts.map (·.typeName)).filterMap d.pluginNamed? := by
  rw [List.filterMap_map]
  rfl

theorem pluginOf?_eq_some_iff {listing : Listing} {plugin : Plugin} :
    d.pluginOf? listing = some plugin ↔
      ∃ decl marker, d.catalog.link listing.typeName = .ok decl ∧ decl.marker = some marker ∧
        .ofMarker decl marker (decl.name.startsWith d.settings.standardNamespace) = plugin := by
  unfold pluginOf?
  cases d.catalog.link listing.typeName with
  | error error => simp
  | ok decl => simp [Plugin.ofDecl?]

end Discovery

/-- The owner of a plugin is declared under its name, links, and carries a marker with the name of
the plugin. -/
structure Plugin.Owned (catalog : Catalog) (plugin : Plugin) : Prop where
  /-- The owner is what is declared under its name. -/
  declared : catalog.find? plugin.owner.name = some plugin.owner
  /-- The owner links. -/
  links : catalog.link plugin.owner.name = .ok plugin.owner
  /-- The owner carries the marker. -/
  marked : ∃ marker, plugin.owner.marker = some marker ∧ marker.name = plugin.name

/-- A name links and is that of a marked type. -/
def Catalog.offers (c : Catalog) (name : String) : Bool :=
  match c.link name with
  | .ok decl => decl.isMarked
  | .error _ => false

theorem Catalog.offers_eq_false_iff {c : Catalog} {name : String} :
    c.offers name = false ↔ ∀ decl, c.link name = .ok decl → decl.marker = none := by
  unfold offers
  cases c.link name with
  | error error => simp
  | ok decl => simp [TypeDecl.isMarked]

/-- A name is that of a declared type that does not link. -/
def Catalog.lacks (c : Catalog) (name : String) : Bool :=
  match c.link name with
  | .error (.missingDependency _ _) => true
  | _ => false

namespace Discovery

variable {d : Discovery}

theorem owner_name_of_pluginOf? {listing : Listing} {plugin : Plugin}
    (h : d.pluginOf? listing = some plugin) : plugin.owner.name = listing.typeName := by
  obtain ⟨decl, marker, hlink, -, rfl⟩ := d.pluginOf?_eq_some_iff.1 h
  exact Catalog.name_of_find? (Catalog.find?_of_link hlink)

theorem owned_of_pluginOf? {listing : Listing} {plugin : Plugin}
    (h : d.pluginOf? listing = some plugin) : plugin.Owned d.catalog := by
  have hname := owner_name_of_pluginOf? h
  obtain ⟨decl, marker, hlink, hmarker, rfl⟩ := d.pluginOf?_eq_some_iff.1 h
  exact ⟨hname ▸ Catalog.find?_of_link hlink, hname ▸ hlink, marker, hmarker, rfl⟩

theorem isSome_pluginOf? (listing : Listing) :
    (d.pluginOf? listing).isSome = d.catalog.offers listing.typeName := by
  unfold pluginOf? Catalog.offers
  cases d.catalog.link listing.typeName with
  | error error => rfl
  | ok decl => simp [Plugin.ofDecl?, TypeDecl.isMarked]

/-- The owners of the plugins are the offered types among those listed, in the same order. -/
theorem owner_names_passOf (side : Side) (firsts : List Listing) :
    (d.passOf side firsts).plugins.map (·.owner.name) =
      (firsts.map (·.typeName)).filter d.catalog.offers := by
  induction firsts with
  | nil => rfl
  | cons listing rest ih =>
    rw [passOf_cons, List.map_cons, List.filter_cons, ← isSome_pluginOf?, ← ih]
    unfold found
    cases hplugin : d.pluginOf? listing with
    | none => rfl
    | some plugin => simp [owner_name_of_pluginOf? hplugin]

/-- Listings of names that are not offered come to no plugin. -/
theorem plugins_passOf_firsts (side : Side) (listings : List Listing) :
    (d.passOf side (Listing.firsts [] listings)).plugins =
      (Listing.firsts [] (listings.filter (d.catalog.offers ·.typeName))).filterMap
        d.pluginOf? := by
  rw [Listing.firsts_filter, List.filterMap_filter]
  refine List.filterMap_congr fun listing _ => ?_
  rw [← isSome_pluginOf?]
  cases hplugin : d.pluginOf? listing <;> rfl

theorem isSome_skippedOf? (listing : Listing) :
    (d.skippedOf? .implementations listing).isSome = d.catalog.lacks listing.typeName := by
  unfold skippedOf? Catalog.lacks
  rcases d.catalog.link listing.typeName with (_ | _) | _ <;> rfl

theorem arg_of_skippedOf? {side : Side} {listing : Listing} {fault : Fault}
    (h : d.skippedOf? side listing = some fault) : fault.arg 0 = listing.typeName := by
  unfold skippedOf? at h
  split at h
  · cases h
    rfl
  · cases h

/-- The faults of the implementations that are skipped are about the listed types that do not link,
in the same order. -/
theorem skipped_names_passOf (firsts : List Listing) :
    (d.passOf .implementations firsts).skipped.map (·.arg 0) =
      (firsts.map (·.typeName)).filter d.catalog.lacks := by
  induction firsts with
  | nil => rfl
  | cons listing rest ih =>
    rw [passOf_cons, List.map_cons, List.filter_cons, ← isSome_skippedOf?, ← ih]
    unfold found
    cases hskipped : d.skippedOf? .implementations listing with
    | none => rfl
    | some fault => simp [arg_of_skippedOf? hskipped]

theorem mem_skipped_names_iff {files : Files} {name : String} :
    name ∈ (d.passResult files .implementations).skipped.map (·.arg 0) ↔
      d.Lists files .implementations name ∧ d.catalog.lacks name = true := by
  rw [passResult, skipped_names_passOf, List.mem_filter, Listing.mem_names_firsts, lists_iff_mem]
  simp

theorem owned_of_mem_passOf {side : Side} {firsts : List Listing} {plugin : Plugin}
    (h : plugin ∈ (d.passOf side firsts).plugins) : plugin.Owned d.catalog := by
  obtain ⟨listing, -, hplugin⟩ := List.mem_filterMap.1 h
  exact owned_of_pluginOf? hplugin

/-- No type owns two plugins of a pass. -/
theorem nodup_owner_names {files : Files} {side : Side} {pass : Pass}
    (h : (d.pass files side).outcome = .ok pass) : (pass.plugins.map (·.owner.name)).Nodup := by
  rw [d.eq_passResult_of_outcome_pass h, passResult, owner_names_passOf]
  exact (Listing.nodup_firsts _ _).filter _

end Discovery

end PluginDiscovery
