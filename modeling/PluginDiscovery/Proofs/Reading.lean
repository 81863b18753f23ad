import PluginDiscovery.Manifest

/-!
# What reading a manifest comes to

A root contributes the listings of its fragment, or nothing where it has none, unless the fragment
is there and cannot be read. Reading a manifest is then told by two functions of the search path:
the first fault on it, and the listings of all its fragments. `outcome_read` says that reading fails
with that fault if there is one and else yields those listings, in the order of the search path.

Where the order does not matter, `Lists` tells which names are listed at all.
-/

namespace PluginDiscovery.Manifest

variable {files : Files} {path : String} {root : ModuleRoot}

/-- Where the fragment of a root is. -/
def sourceOf (path : String) (root : ModuleRoot) : String := s!"{root.location}/{path}"

/-- Why the fragment of a root cannot be read, if it is there and cannot. -/
def failureOf? (files : Files) (path : String) (root : ModuleRoot) : Option String :=
  match root.openPath files path with
  | .absent => none
  | .refused reason => some reason
  | .opened stream => stream.lines.2

/-- The fragment of a root is missing or can be read to its end. -/
def Readable (files : Files) (path : String) (root : ModuleRoot) : Prop :=
  failureOf? files path root = none

/-- The listings of the fragment of a root. -/
def listingsOf (files : Files) (path : String) (root : ModuleRoot) : List Listing :=
  match root.openPath files path with
  | .opened stream => listings (sourceOf path root) (stream.lines.1.zipIdx 1)
  | _ => []

/-- The fault of the fragment of a root. -/
def faultOf? (files : Files) (path : String) (root : ModuleRoot) : Option Fault :=
  (failureOf? files path root).map (unreadable (sourceOf path root))

/-- The fault of the first fragment on a search path that cannot be read. -/
def firstFault? (files : Files) (path : String) (roots : List ModuleRoot) : Option Fault :=
  roots.findSome? (faultOf? files path)

/-- The listings of all fragments on a search path. -/
def allListings (files : Files) (path : String) (roots : List ModuleRoot) : List Listing :=
  roots.flatMap (listingsOf files path)

theorem faultOf?_eq_none_iff : faultOf? files path root = none ↔ Readable files path root := by
  simp [faultOf?, Readable]

theorem readable_of_absent (h : root.openPath files path = .absent) :
    Readable files path root ∧ listingsOf files path root = [] := by
  unfold Readable failureOf? listingsOf
  rw [h]
  exact ⟨rfl, rfl⟩

/-- A fragment that was read to its end lists what is on its lines. -/
theorem readable_of_lines {stream : Stream} {texts : List String}
    (hopen : root.openPath files path = .opened stream) (hlines : stream.lines = (texts, none)) :
    Readable files path root ∧
      listingsOf files path root = listings (sourceOf path root) (texts.zipIdx 1) := by
  unfold Readable failureOf? listingsOf
  rw [hopen]
  simp only [hlines, true_and]

theorem outcome_noteAll (found : List Listing) : (noteAll found).outcome = .ok () := by
  induction found with
  | nil => rfl
  | cons listing rest ih => exact ih

theorem outcome_readFragment_of_some {fault : Fault} (h : faultOf? files path root = some fault) :
    (readFragment files path root).outcome = .error fault := by
  obtain ⟨reason, hreason, rfl⟩ := Option.map_eq_some_iff.1 h
  unfold failureOf? at hreason
  unfold readFragment
  cases hopen : root.openPath files path with
  | absent => simp [hopen] at hreason
  | refused other =>
    simp only [hopen, Option.some.injEq] at hreason
    simp [hreason, sourceOf]
  | opened stream =>
    simp only [hopen] at hreason
    simp only [Traced.bind_eq]
    rw [Traced.outcome_andThen_of_ok (Traced.outcome_note _),
      Traced.outcome_andThen_of_ok (outcome_noteAll _)]
    simp [hreason, sourceOf]

theorem outcome_readFragment_of_none (h : faultOf? files path root = none) :
    (readFragment files path root).outcome = .ok (listingsOf files path root) := by
  have hreason : failureOf? files path root = none := faultOf?_eq_none_iff.1 h
  unfold failureOf? at hreason
  unfold readFragment listingsOf
  cases hopen : root.openPath files path with
  | absent => simp
  | refused reason => simp [hopen] at hreason
  | opened stream =>
    simp only [hopen] at hreason
    simp only [Traced.bind_eq]
    rw [Traced.outcome_andThen_of_ok (Traced.outcome_note _),
      Traced.outcome_andThen_of_ok (outcome_noteAll _)]
    simp [hreason, sourceOf]

/-- Reading fails with the first fault on the search path, and else lists all that is listed. -/
theorem outcome_read (files : Files) (path : String) (roots : List ModuleRoot) :
    (read files path roots).outcome =
      match firstFault? files path roots with
      | some fault => .error fault
      | none => .ok (allListings files path roots) := by
  induction roots with
  | nil => rfl
  | cons root rest ih =>
    unfold read firstFault? allListings
    rw [List.findSome?_cons, List.flatMap_cons, Traced.bind_eq]
    cases hfault : faultOf? files path root with
    | some fault => exact Traced.outcome_andThen_of_error (outcome_readFragment_of_some hfault) _
    | none =>
      rw [Traced.outcome_andThen_of_ok (outcome_readFragment_of_none hfault), Traced.bind_eq]
      show _ = match firstFault? files path rest with
        | some fault => Except.error fault
        | none => .ok (listingsOf files path root ++ allListings files path rest)
      cases hrest : firstFault? files path rest with
      | some fault =>
        rw [hrest] at ih
        exact Traced.outcome_andThen_of_error ih _
      | none =>
        rw [hrest] at ih
        rw [Traced.outcome_andThen_of_ok ih]
        rfl

theorem firstFault?_eq_none_iff {roots : List ModuleRoot} :
    firstFault? files path roots = none ↔ ∀ root ∈ roots, Readable files path root := by
  simp [firstFault?, faultOf?_eq_none_iff]

/-- The fault of reading names the first fragment that cannot be read. -/
theorem firstFault?_eq_some_iff {roots : List ModuleRoot} {fault : Fault} :
    firstFault? files path roots = some fault ↔
      ∃ before root after reason, roots = before ++ root :: after ∧
        (∀ other ∈ before, Readable files path other) ∧
        failureOf? files path root = some reason ∧
        fault = unreadable (sourceOf path root) reason := by
  unfold firstFault?
  rw [List.findSome?_eq_some_iff]
  constructor
  · rintro ⟨before, root, after, hroots, hroot, hbefore⟩
    obtain ⟨reason, hreason, rfl⟩ := Option.map_eq_some_iff.1 hroot
    exact ⟨before, root, after, reason, hroots,
      fun other hother => faultOf?_eq_none_iff.1 (hbefore other hother), hreason, rfl⟩
  · rintro ⟨before, root, after, reason, hroots, hbefore, hreason, rfl⟩
    exact ⟨before, root, after, hroots, Option.map_eq_some_iff.2 ⟨reason, hreason, rfl⟩,
      fun other hother => faultOf?_eq_none_iff.2 (hbefore other hother)⟩

/-! ## Listed names -/

/-- A name is listed: it is not blank, and it is what some line of some fragment comes to when the
blanks around it are taken away. -/
def Lists (files : Files) (path : String) (roots : List ModuleRoot) (name : String) : Prop :=
  name ≠ "" ∧ ∃ root ∈ roots, ∃ stream, root.openPath files path = .opened stream ∧
    ∃ line ∈ stream.lines.1, Text.trim line = name

theorem mem_listings_iff {source : String} {lines : List (String × Nat)} {listing : Listing} :
    listing ∈ listings source lines ↔
      ∃ line ∈ lines, Text.trim line.1 ≠ "" ∧ listing = ⟨source, line.2, Text.trim line.1⟩ := by
  unfold listings
  rw [List.mem_filterMap]
  refine exists_congr fun line => and_congr_right fun _ => ?_
  by_cases hblank : (Text.trim line.1).isEmpty = true
  · have hempty : Text.trim line.1 = "" := String.isEmpty_iff.1 hblank
    simp only [hempty]
    simp
  · have hname : Text.trim line.1 ≠ "" := fun hempty => hblank (String.isEmpty_iff.2 hempty)
    simp only [hblank]
    simp [hname, eq_comm]

theorem mem_names_listingsOf {name : String} :
    name ∈ (listingsOf files path root).map (·.typeName) ↔
      name ≠ "" ∧ ∃ stream, root.openPath files path = .opened stream ∧
        ∃ line ∈ stream.lines.1, Text.trim line = name := by
  unfold listingsOf
  cases hopen : root.openPath files path with
  | absent => simp
  | refused reason => simp
  | opened stream =>
    rw [List.mem_map]
    constructor
    · rintro ⟨listing, hlisting, rfl⟩
      obtain ⟨line, hline, hname, rfl⟩ := mem_listings_iff.1 hlisting
      exact ⟨hname, stream, rfl, line.1, List.fst_mem_of_mem_zipIdx hline, rfl⟩
    · rintro ⟨hname, other, hother, line, hline, rfl⟩
      cases hother
      obtain ⟨number, hnumber⟩ : ∃ number, (line, number) ∈ stream.lines.1.zipIdx 1 := by
        rw [← List.zipIdx_map_fst 1 stream.lines.1] at hline
        obtain ⟨entry, hentry, rfl⟩ := List.mem_map.1 hline
        exact ⟨entry.2, hentry⟩
      exact ⟨_, mem_listings_iff.2 ⟨(line, number), hnumber, hname, rfl⟩, rfl⟩

theorem lists_iff_mem {roots : List ModuleRoot} {name : String} :
    Lists files path roots name ↔ name ∈ (allListings files path roots).map (·.typeName) := by
  unfold allListings
  rw [List.map_flatMap, List.mem_flatMap]
  constructor
  · rintro ⟨hname, root, hroot, hstream⟩
    exact ⟨root, hroot, mem_names_listingsOf.2 ⟨hname, hstream⟩⟩
  · rintro ⟨root, hroot, hmem⟩
    obtain ⟨hname, hstream⟩ := mem_names_listingsOf.1 hmem
    exact ⟨hname, root, hroot, hstream⟩

theorem lists_of_mem {roots : List ModuleRoot} {listing : Listing}
    (h : listing ∈ allListings files path roots) : Lists files path roots listing.typeName :=
  lists_iff_mem.2 (List.mem_map_of_mem h)

end PluginDiscovery.Manifest
