import Mathlib.Data.List.Induction
import PluginDiscovery.Proofs.Session

/-!
# What a load notes

Every note of a load is an event, and the log keeps each text once, where it came first. So the log
is told by the notes, and the notes are told pass by pass. A pass notes every fragment that it opens
and every line in it that is not blank; once all fragments are read, it remarks on the listings that
come to nothing. It stops at the first fault. `Discovery.PassNotes` lists these notes for each way
in which a pass can end, without following its loops; `events_pass` says that a pass makes them.

The main statement, `notes_of_reload`, is about the attempts of a whole session: what is noted, and
that the notes of earlier attempts are gone.
-/

namespace PluginDiscovery

namespace NoteLog

theorem entries_record (log : NoteLog) (text : String) :
    (log.record text).entries =
      log.entries ++ if text ∈ log.entries then [] else [text] := by
  unfold record
  by_cases h : text ∈ log.entries
  · rw [dif_pos h, if_pos h, List.append_nil]
  · rw [dif_neg h, if_neg h]

/-- The log of events holds the texts of their notes, each where it came first. -/
theorem entries_ofEvents (events : List Event) :
    (ofEvents events).entries = ((events.filterMap Event.note?).map (·.text)).eraseDups := by
  unfold ofEvents recordAll
  generalize events.filterMap Event.note? = notes
  induction notes using List.reverseRecOn with
  | nil => rfl
  | append_singleton notes note ih =>
    rw [List.foldl_append, List.foldl_cons, List.foldl_nil, entries_record, ih, List.map_append,
      List.map_singleton, eraseDups_concat]
    simp only [List.mem_eraseDups]

end NoteLog

namespace Event

theorem decide_target (event : Event) :
    decide (event.target = "spindle::discovery") = event.note?.isSome := by
  cases event <;> simp [target, note?]

/-- The events of discovery are the notes. -/
theorem filter_target (events : List Event) :
    events.filter (·.target = "spindle::discovery") = (events.filterMap note?).map noted := by
  simp only [decide_target]
  induction events with
  | nil => rfl
  | cons event events ih =>
    rw [List.filter_cons, List.filterMap_cons]
    cases event with
    | noted note => exact congrArg (List.cons (noted note)) ih
    | _ => exact ih

theorem filterMap_note?_noted (notes : List Note) :
    (notes.map noted).filterMap note? = notes := by
  rw [List.filterMap_map]
  exact List.filterMap_some

end Event

/-! ## Reading -/

namespace Manifest

variable {files : Files} {path : String}

/-- What is noted about the fragment of a root: that it has been found, and each name that it lists
in the lines that can be read. -/
def fragmentNotes (files : Files) (path : String) (root : ModuleRoot) : List Note :=
  match root.openPath files path with
  | .opened stream =>
    { text := s!"resource found at {sourceOf path root}" } ::
      ((stream.lines.1.map Text.trim).filter (· ≠ "")).map fun name =>
        { text := s!"processing entry {name} from {sourceOf path root}" }
  | _ => []

theorem events_noteAll (found : List Listing) :
    (noteAll found).events =
      found.map fun listing =>
        .noted { text := s!"processing entry {listing.typeName} from {listing.source}" } := by
  induction found with
  | nil => rfl
  | cons listing rest ih =>
    rw [List.map_cons, ← ih]
    rfl

theorem events_noteAll_listings (source : String) (lines : List (String × Nat)) :
    (noteAll (listings source lines)).events =
      (((lines.map fun line => Text.trim line.1).filter (· ≠ "")).map fun name =>
        .noted { text := s!"processing entry {name} from {source}" }) := by
  rw [events_noteAll]
  unfold listings
  induction lines with
  | nil => rfl
  | cons line rest ih =>
    rw [List.filterMap_cons, List.map_cons, List.filter_cons]
    by_cases hblank : Text.trim line.1 = ""
    · simpa [hblank] using ih
    · have hname : (Text.trim line.1).isEmpty = false := by
        rw [Bool.eq_false_iff]
        exact fun hempty => hblank (String.isEmpty_iff.1 hempty)
      simpa [hblank, hname] using ih

theorem events_readFragment (root : ModuleRoot) :
    (readFragment files path root).events = (fragmentNotes files path root).map .noted := by
  unfold readFragment fragmentNotes
  cases hopen : root.openPath files path with
  | absent => rfl
  | refused reason => rfl
  | opened stream =>
    have hnames : (stream.lines.1.zipIdx 1).map (fun line => Text.trim line.1) =
        stream.lines.1.map Text.trim := by
      have hmap := List.map_map (g := Text.trim) (f := Prod.fst) (l := stream.lines.1.zipIdx 1)
      rw [List.zipIdx_map_fst] at hmap
      exact hmap.symm
    have hentries := events_noteAll_listings (sourceOf path root) (stream.lines.1.zipIdx 1)
    rw [hnames] at hentries
    simp only [Traced.bind_eq]
    rw [Traced.events_andThen_of_ok (Traced.outcome_note _),
      Traced.events_andThen_of_ok (outcome_noteAll _)]
    change _ ++ ((noteAll (listings (sourceOf path root) _)).events ++ _) = _
    rw [hentries]
    -- whether the reading stops here or not, nothing more is noted
    cases stream.lines.2 with
    | some reason =>
      rw [Traced.events_fail, List.append_nil, List.map_cons, List.map_map]
      rfl
    | none =>
      rw [Traced.pure_eq, Traced.events_ok, List.append_nil, List.map_cons, List.map_map]
      rfl

/-- Reading goes on after fragments that can be read. -/
theorem events_read_append {before : List ModuleRoot}
    (hbefore : ∀ root ∈ before, Readable files path root) (rest : List ModuleRoot) :
    (read files path (before ++ rest)).events =
      (before.flatMap (fragmentNotes files path)).map .noted ++ (read files path rest).events := by
  induction before with
  | nil => rfl
  | cons root before ih =>
    have hroot : (readFragment files path root).outcome = .ok (listingsOf files path root) :=
      outcome_readFragment_of_none (faultOf?_eq_none_iff.2 (hbefore root List.mem_cons_self))
    have hrest := ih fun other hother => hbefore other (List.mem_cons_of_mem _ hother)
    rw [List.cons_append, read, Traced.bind_eq, Traced.events_andThen_of_ok hroot,
      events_readFragment, List.flatMap_cons, List.map_append, List.append_assoc, ← hrest]
    exact congrArg _ (Traced.events_andThen_ok _ _)

theorem events_read_of_readable {roots : List ModuleRoot}
    (h : ∀ root ∈ roots, Readable files path root) :
    (read files path roots).events = (roots.flatMap (fragmentNotes files path)).map .noted := by
  have hread := events_read_append h []
  rw [List.append_nil] at hread
  exact hread.trans (List.append_nil _)

/-- Reading stops within the first fragment that cannot be read. -/
theorem events_read_of_unreadable {before after : List ModuleRoot} {root : ModuleRoot}
    {reason : String} (hbefore : ∀ other ∈ before, Readable files path other)
    (hroot : failureOf? files path root = some reason) :
    (read files path (before ++ root :: after)).events =
      ((before ++ [root]).flatMap (fragmentNotes files path)).map .noted := by
  have hfault : faultOf? files path root = some (unreadable (sourceOf path root) reason) :=
    Option.map_eq_some_iff.2 ⟨reason, hroot, rfl⟩
  have hstop : (read files path (root :: after)).events =
      (fragmentNotes files path root).map .noted := by
    rw [read, Traced.bind_eq,
      Traced.events_andThen_of_error (outcome_readFragment_of_some hfault), events_readFragment]
  rw [events_read_append hbefore, hstop, List.flatMap_append, List.map_append,
    List.flatMap_singleton]

end Manifest

/-! ## Going through listings -/

namespace Discovery

variable {d : Discovery} {files : Files}

/-- The remark on a listing, given the names listed before it: it repeats one of them, its type does
not link and is skipped, or its type carries no marker. -/
def remark? (d : Discovery) (side : Side) (earlier : List String) (listing : Listing) :
    Option Note :=
  if listing.typeName ∈ earlier then
    some { text :=
      s!"entry {listing.typeName} at {listing.position} already listed, ignoring" }
  else
    match d.catalog.link listing.typeName, side with
    | .ok decl, _ =>
      if decl.isMarked then none
      else some { text :=
        s!"entry {listing.typeName} at {listing.position} carries no plugin marker, ignoring" }
    | .error (.missingDependency _ missing), .implementations =>
      some { skipping := true, text := (skippedFor listing missing).body }
    | .error _, _ => none

/-- The remarks on listings, each in view of those before it. -/
def remarks (d : Discovery) (side : Side) (listings : List Listing) : List Note :=
  listings.zipIdx.filterMap fun entry =>
    d.remark? side ((listings.take entry.2).map (·.typeName)) entry.1

/-- The remarks on listings after names that are listed before. -/
def remarksAfter (d : Discovery) (side : Side) (earlier : List String) : List Listing → List Note
  | [] => []
  | listing :: rest =>
    (d.remark? side earlier listing).toList ++
      d.remarksAfter side (earlier ++ [listing.typeName]) rest

theorem remarksAfter_map (side : Side) (before rest : List Listing) :
    d.remarksAfter side (before.map (·.typeName)) rest =
      (rest.zipIdx before.length).filterMap fun entry =>
        d.remark? side (((before ++ rest).take entry.2).map (·.typeName)) entry.1 := by
  induction rest generalizing before with
  | nil => rfl
  | cons listing rest ih =>
    have hrest := ih (before ++ [listing])
    rw [List.map_append, List.map_singleton, List.length_append, List.length_singleton,
      List.append_assoc, List.singleton_append] at hrest
    rw [remarksAfter, hrest, List.zipIdx_cons, List.filterMap_cons]
    simp only [List.take_left]
    cases d.remark? side (before.map (·.typeName)) listing <;> rfl

theorem remarksAfter_nil (side : Side) (listings : List Listing) :
    d.remarksAfter side [] listings = d.remarks side listings :=
  remarksAfter_map side [] listings

/-- Going through listings only depends on which names have been seen. -/
theorem scan_congr {side : Side} {seen seen' : List String}
    (h : ∀ name, name ∈ seen ↔ name ∈ seen') (listings : List Listing) :
    d.scan side seen listings = d.scan side seen' listings := by
  induction listings generalizing seen seen' with
  | nil => rfl
  | cons listing rest ih =>
    have hsame : d.scan side seen rest = d.scan side seen' rest := ih h
    have hmore : d.scan side (listing.typeName :: seen) rest =
        d.scan side (listing.typeName :: seen') rest := by
      refine ih fun name => ?_
      rw [List.mem_cons, List.mem_cons, h name]
    unfold scan
    simp only [h listing.typeName, hsame, hmore]

/-- A listing that does not end the pass is remarked on, and the pass goes on. -/
theorem events_scan_cons {side : Side} {listing : Listing} (h : d.faultOf? side listing = none)
    (seen : List String) (rest : List Listing) :
    (d.scan side seen (listing :: rest)).events =
      (d.remark? side seen listing).toList.map .noted ++
        (d.scan side (seen ++ [listing.typeName]) rest).events := by
  by_cases hseen : listing.typeName ∈ seen
  · have hsame : d.scan side (seen ++ [listing.typeName]) rest = d.scan side seen rest := by
      refine scan_congr (fun name => ?_) rest
      rw [List.mem_append, List.mem_singleton]
      exact ⟨fun hname => hname.elim id fun heq => heq ▸ hseen, .inl⟩
    conv_lhs => unfold scan
    unfold remark?
    simp only [hseen, if_true, Traced.bind_eq]
    rw [Traced.events_andThen_of_ok (Traced.outcome_note _), hsame]
    rfl
  · have hsame : d.scan side (seen ++ [listing.typeName]) rest =
        d.scan side (listing.typeName :: seen) rest := by
      refine scan_congr (fun name => ?_) rest
      rw [List.mem_append, List.mem_singleton, List.mem_cons, or_comm]
    rw [hsame]
    conv_lhs => unfold scan
    unfold faultOf? at h
    unfold remark?
    simp only [hseen, if_false, Traced.bind_eq, Traced.pure_eq]
    cases hlink : d.catalog.link listing.typeName with
    | error error =>
      rw [hlink] at h
      cases error with
      | notFound name => cases side <;> cases h
      | missingDependency name missing =>
        cases side with
        | interfaces => cases h
        | implementations =>
          rw [Traced.events_andThen_of_ok (Traced.outcome_warn _), Traced.events_andThen_ok]
          rfl
    | ok decl =>
      have hmarked := Plugin.isSome_ofDecl? d.settings.standardNamespace decl
      cases hplugin : Plugin.ofDecl? d.settings.standardNamespace decl with
      | some plugin =>
        rw [hplugin] at hmarked
        simp only [hplugin, ← hmarked, Option.isSome_some, if_true, Traced.events_andThen_ok]
        rfl
      | none =>
        rw [hplugin] at hmarked
        simp only [hplugin, ← hmarked, Option.isSome_none, Bool.false_eq_true, if_false]
        rw [Traced.events_andThen_of_ok (Traced.outcome_note _)]
        rfl

theorem scan_cons_of_fault {side : Side} {seen : List String} {listing : Listing} {fault : Fault}
    (hseen : listing.typeName ∉ seen) (h : d.faultOf? side listing = some fault)
    (rest : List Listing) : d.scan side seen (listing :: rest) = .fail (.fatal fault) := by
  unfold scan
  unfold faultOf? at h
  simp only [hseen, if_false]
  cases hlink : d.catalog.link listing.typeName with
  | ok decl =>
    rw [hlink] at h
    cases h
  | error error =>
    rw [hlink] at h
    cases error <;> cases side <;> cases h <;> rfl

theorem events_scan_append {side : Side} {before : List Listing}
    (hbefore : ∀ other ∈ before, d.faultOf? side other = none) (seen : List String)
    (rest : List Listing) :
    (d.scan side seen (before ++ rest)).events =
      (d.remarksAfter side seen before).map .noted ++
        (d.scan side (seen ++ before.map (·.typeName)) rest).events := by
  induction before generalizing seen with
  | nil =>
    rw [List.map_nil, List.append_nil]
    rfl
  | cons listing before ih =>
    have hrest := ih (fun other hother => hbefore other (List.mem_cons_of_mem _ hother))
      (seen ++ [listing.typeName])
    rw [List.cons_append, events_scan_cons (hbefore listing List.mem_cons_self), hrest,
      remarksAfter, List.map_append, List.append_assoc, List.map_cons, List.append_assoc,
      List.singleton_append]

theorem events_scan_of_admitted {side : Side} {listings : List Listing}
    (h : ∀ listing ∈ listings, d.Admits side listing.typeName) :
    (d.scan side [] listings).events = (d.remarks side listings).map .noted := by
  have hfaults : ∀ listing ∈ listings, d.faultOf? side listing = none := fun listing hlisting =>
    (d.faultOf?_eq_none_iff).2 (h listing hlisting)
  have hscan := events_scan_append hfaults [] []
  rw [List.append_nil, remarksAfter_nil] at hscan
  exact hscan.trans (List.append_nil _)

/-- The pass stops at the first listing whose name is not admitted, and says nothing of it. -/
theorem events_scan_of_refused {side : Side} {before after : List Listing} {listing : Listing}
    (hbefore : ∀ other ∈ before, d.Admits side other.typeName)
    (hrefused : ¬d.Admits side listing.typeName) :
    (d.scan side [] (before ++ listing :: after)).events =
      (d.remarks side before).map .noted := by
  have hfaults : ∀ other ∈ before, d.faultOf? side other = none := fun other hother =>
    (d.faultOf?_eq_none_iff).2 (hbefore other hother)
  have hnew : listing.typeName ∉ before.map (·.typeName) := by
    intro hmem
    obtain ⟨other, hother, hname⟩ := List.mem_map.1 hmem
    exact hrefused (hname ▸ hbefore other hother)
  obtain ⟨fault, hfault⟩ : ∃ fault, d.faultOf? side listing = some fault :=
    Option.ne_none_iff_exists'.1 fun hnone => hrefused ((d.faultOf?_eq_none_iff).1 hnone)
  rw [events_scan_append hfaults, List.nil_append, scan_cons_of_fault hnew hfault,
    remarksAfter_nil]
  exact List.append_nil _

/-! ## Whole passes -/

/-- What a pass notes, and the fault that ends it, if there is one. -/
inductive PassNotes (d : Discovery) (files : Files) (side : Side) :
    List Note → Option Fault → Prop where
  /-- A fragment cannot be read: it is the last one that is noted. -/
  | unreadable {before after : List ModuleRoot} {root : ModuleRoot} {reason : String}
      (hpath : d.searchPath = before ++ root :: after)
      (hbefore : ∀ other ∈ before, Manifest.Readable files (d.settings.manifest side) other)
      (hroot : Manifest.failureOf? files (d.settings.manifest side) root = some reason) :
      PassNotes d files side
        ((before ++ [root]).flatMap (Manifest.fragmentNotes files (d.settings.manifest side)))
        (some (Manifest.unreadable (Manifest.sourceOf (d.settings.manifest side) root) reason))
  /-- All fragments can be read, but a listed name is not admitted: the listings before it are the
  last ones that are remarked on. -/
  | unresolved
      (hread : ∀ root ∈ d.searchPath, Manifest.Readable files (d.settings.manifest side) root)
      {before after : List Listing} {listing : Listing} {error : Catalog.LinkError}
      (hlistings : d.listings files side = before ++ listing :: after)
      (hbefore : ∀ other ∈ before, d.Admits side other.typeName)
      (hrefused : ¬d.Admits side listing.typeName)
      (hlink : d.catalog.link listing.typeName = .error error) :
      PassNotes d files side
        (d.searchPath.flatMap (Manifest.fragmentNotes files (d.settings.manifest side)) ++
          d.remarks side before)
        (some (unresolved listing error))
  /-- All fragments can be read, and all listed names are admitted. -/
  | clear (hclear : d.Clear files side) :
      PassNotes d files side
        (d.searchPath.flatMap (Manifest.fragmentNotes files (d.settings.manifest side)) ++
          d.remarks side (d.listings files side))
        none

variable {side : Side} {notes : List Note} {stop : Option Fault}

theorem passFault?_of_passNotes (h : d.PassNotes files side notes stop) :
    d.passFault? files side = stop := by
  cases h with
  | unreadable hpath hbefore hroot =>
    have hread := Manifest.firstFault?_eq_some_iff.2 ⟨_, _, _, _, hpath, hbefore, hroot, rfl⟩
    rw [passFault?, hread, Option.some_or]
  | unresolved hread hlistings hbefore hrefused hlink =>
    rw [passFault?, Manifest.firstFault?_eq_none_iff.2 hread, Option.none_or]
    refine (d.firstFault?_eq_some_iff).2
      ⟨_, _, _, _, hlistings, fun other hother => ⟨hbefore other hother, ?_⟩, hrefused, hlink, rfl⟩
    intro hname
    exact hrefused (hname ▸ hbefore other hother)
  | clear hclear => exact passFault?_eq_none_iff.2 hclear

theorem exists_passNotes (d : Discovery) (files : Files) (side : Side) :
    ∃ notes stop, d.PassNotes files side notes stop := by
  cases hread : Manifest.firstFault? files (d.settings.manifest side) d.searchPath with
  | some fault =>
    obtain ⟨before, root, after, reason, hpath, hbefore, hroot, -⟩ :=
      Manifest.firstFault?_eq_some_iff.1 hread
    exact ⟨_, _, .unreadable hpath hbefore hroot⟩
  | none =>
    have hreadable := Manifest.firstFault?_eq_none_iff.1 hread
    cases hresolve : d.firstFault? side (d.listings files side) with
    | some fault =>
      obtain ⟨before, listing, after, error, hlistings, hbefore, hrefused, hlink, -⟩ :=
        (d.firstFault?_eq_some_iff).1 hresolve
      exact ⟨_, _, .unresolved hreadable hlistings (fun other hother => (hbefore other hother).1)
        hrefused hlink⟩
    | none => exact ⟨_, _, .clear ⟨hreadable, (d.firstFault?_eq_none_iff).1 hresolve⟩⟩

theorem events_pass_of_readable
    (hread : ∀ root ∈ d.searchPath, Manifest.Readable files (d.settings.manifest side) root) :
    (d.pass files side).events =
      (d.searchPath.flatMap (Manifest.fragmentNotes files (d.settings.manifest side))).map .noted ++
        (d.scan side [] (d.listings files side)).events := by
  have hlistings : ((Manifest.read files (d.settings.manifest side) d.searchPath).mapError
      FaultReport.fatal).outcome = .ok (d.listings files side) := by
    rw [Traced.outcome_mapError, Manifest.outcome_read, Manifest.firstFault?_eq_none_iff.2 hread]
    rfl
  rw [pass, Traced.bind_eq, Traced.events_andThen_of_ok hlistings,
    ← Manifest.events_read_of_readable hread]
  rfl

/-- A pass makes its notes and emits nothing else. -/
theorem events_pass (h : d.PassNotes files side notes stop) :
    (d.pass files side).events = notes.map .noted := by
  cases h with
  | @unreadable before after root reason hpath hbefore hroot =>
    have hfault := Manifest.firstFault?_eq_some_iff.2 ⟨_, _, _, _, hpath, hbefore, hroot, rfl⟩
    have hstop : ((Manifest.read files (d.settings.manifest side) d.searchPath).mapError
        FaultReport.fatal).outcome = .error (.fatal (Manifest.unreadable
          (Manifest.sourceOf (d.settings.manifest side) root) reason)) := by
      rw [Traced.outcome_mapError, Manifest.outcome_read, hfault]
      rfl
    rw [pass, Traced.bind_eq, Traced.events_andThen_of_error hstop,
      ← Manifest.events_read_of_unreadable hbefore hroot, ← hpath]
    rfl
  | unresolved hread hlistings hbefore hrefused hlink =>
    rw [events_pass_of_readable hread, hlistings, events_scan_of_refused hbefore hrefused,
      List.map_append]
  | clear hclear =>
    rw [events_pass_of_readable hclear.readable, events_scan_of_admitted hclear.admitted,
      List.map_append]

/-! ## Whole loads -/

/-- What a load notes, and the fault that ends it before its check, if there is one. -/
inductive LoadNotes (d : Discovery) (files : Files) : List Note → Option Fault → Prop where
  /-- The pass over the extension points ends the load. -/
  | interfaces {notes : List Note} {fault : Fault}
      (h : d.PassNotes files .interfaces notes (some fault)) : LoadNotes d files notes (some fault)
  /-- The pass over the implementations follows. -/
  | implementations {notes notes' : List Note} {stop : Option Fault}
      (h : d.PassNotes files .interfaces notes none)
      (h' : d.PassNotes files .implementations notes' stop) :
      LoadNotes d files (notes ++ notes') stop

theorem exists_loadNotes (d : Discovery) (files : Files) :
    ∃ notes stop, d.LoadNotes files notes stop := by
  obtain ⟨notes, stop, h⟩ := exists_passNotes d files .interfaces
  cases stop with
  | some fault => exact ⟨_, _, .interfaces h⟩
  | none =>
    obtain ⟨notes', stop', h'⟩ := exists_passNotes d files .implementations
    exact ⟨_, _, .implementations h h'⟩

/-- A check makes no notes. -/
theorem notes_check (d : Discovery) (candidates : Candidates) :
    (d.check candidates).events.filterMap Event.note? = [] := by
  refine List.filterMap_eq_nil_iff.2 fun event hevent => ?_
  obtain ⟨rule, -, hrule⟩ := List.mem_filterMap.1 hevent
  cases hcount : (rule.violations d.catalog candidates).length with
  | zero =>
    rw [hcount] at hrule
    cases hrule
  | succ count =>
    rw [hcount] at hrule
    cases hrule
    rfl

theorem notes_survey (h : d.LoadNotes files notes stop) :
    (d.survey files).events.filterMap Event.note? = notes := by
  cases h with
  | @interfaces notes fault h =>
    have hpass : (d.pass files .interfaces).outcome = .error (.fatal fault) := by
      rw [outcome_pass, passFault?_of_passNotes h]
    rw [survey, Traced.bind_eq, Traced.events_andThen_of_error hpass, events_pass h,
      Event.filterMap_note?_noted]
  | @implementations notes notes' stop h h' =>
    have hfirst : (d.pass files .interfaces).outcome = .ok (d.passResult files .interfaces) := by
      rw [outcome_pass, passFault?_of_passNotes h]
    rw [survey, Traced.bind_eq, Traced.events_andThen_of_ok hfirst, events_pass h,
      List.filterMap_append, Event.filterMap_note?_noted]
    refine congrArg _ ?_
    cases stop with
    | some fault =>
      have hsecond : (d.pass files .implementations).outcome = .error (.fatal fault) := by
        rw [outcome_pass, passFault?_of_passNotes h']
      rw [Traced.bind_eq, Traced.events_andThen_of_error hsecond, events_pass h',
        Event.filterMap_note?_noted]
    | none =>
      have hsecond : (d.pass files .implementations).outcome =
          .ok (d.passResult files .implementations) := by
        rw [outcome_pass, passFault?_of_passNotes h']
      rw [Traced.bind_eq, Traced.events_andThen_of_ok hsecond, events_pass h',
        List.filterMap_append, Event.filterMap_note?_noted]
      have hcheck := Traced.events_andThen_ok (d.check (d.candidates files))
        fun _ => d.surveyResult files
      refine (congrArg (notes' ++ ·) ?_).trans (List.append_nil _)
      exact (congrArg (List.filterMap Event.note?) hcheck).trans (notes_check d _)

theorem or_passFault?_of_loadNotes (h : d.LoadNotes files notes stop) :
    (d.passFault? files .interfaces).or (d.passFault? files .implementations) = stop := by
  cases h with
  | interfaces h => rw [passFault?_of_passNotes h, Option.some_or]
  | implementations h h' =>
    rw [passFault?_of_passNotes h, passFault?_of_passNotes h', Option.none_or]

/-- What a check reports has other codes than the report itself, so it is never a single fault that
ended the load. -/
theorem fatal_ne_declarations (fault : Fault) (rules : List Coherence.Rule)
    (candidates : Candidates) :
    FaultReport.fatal fault ≠
      .declarations (Coherence.violations d.catalog rules candidates) := by
  intro heq
  have hcode : fault.code = .incoherentDeclarations := congrArg FaultReport.code heq
  have hfaults : [fault] = _ := congrArg FaultReport.faults heq
  have hmem := FaultReport.mem_collect.1 (hfaults ▸ List.mem_singleton_self fault)
  obtain ⟨rule, -, hrule⟩ := List.mem_flatMap.1 hmem
  have hother := Coherence.Rule.code_of_mem_violations hrule
  rw [hcode] at hother
  cases rule <;> cases hother

/-- A load ends with a single fault exactly when a pass does. -/
theorem outcome_survey_eq_fatal_iff {fault : Fault} :
    (d.survey files).outcome = .error (.fatal fault) ↔
      (d.passFault? files .interfaces).or (d.passFault? files .implementations) = some fault := by
  rw [outcome_survey_eq]
  cases hstop : (d.passFault? files .interfaces).or (d.passFault? files .implementations) with
  | some other =>
    constructor
    · intro h
      have hfaults : [other] = [fault] := congrArg FaultReport.faults (Except.error.inj h)
      exact congrArg some (List.singleton_inj.1 hfaults)
    · intro h
      rw [Option.some.inj h]
  | none =>
    constructor
    · intro h
      cases hcheck : (d.check (d.candidates files)).outcome with
      | ok value =>
        simp only [hcheck] at h
        cases h
      | error report =>
        simp only [hcheck] at h
        have hreport : report = .fatal fault := Except.error.inj h
        have hdeclarations := Coherence.report_of_outcome_check hcheck
        exact absurd (hreport.symm.trans hdeclarations) (fatal_ne_declarations fault _ _)
    · intro h
      cases h

end Discovery

namespace Loader

/-- A reload ends with one more event, which is no note. -/
theorem events_reload (l : Loader) (files : Files) :
    ∃ last, last.note? = none ∧ (l.reload files).2.events = (l.dryRun files).events ++ [last] := by
  cases h : (l.dryRun files).outcome with
  | error report => exact ⟨.loadFailed report, rfl, by simp [reload, h]⟩
  | ok survey =>
    let report := reportOf (l.generation + 1) survey
    refine ⟨.loaded report.generation report.interfaces report.implementations
      report.skipped.length, rfl, ?_⟩
    simp [reload, h, report]

theorem outcome_reload_eq_error_iff {l : Loader} {files : Files} {report : FaultReport} :
    (l.reload files).2.outcome = .error report ↔ (l.dryRun files).outcome = .error report :=
  ⟨dryRun_of_reload_error, fun h => (reload_of_error h).2⟩

/-- Whatever came before in a session, the discovery events of a reload are the notes of its own
passes, in order: each pass notes the fragments that it opens, in the order of the search path and
each with the names in it, and then remarks on the listings that repeat an earlier name, are skipped
or carry no marker. The notes stop at the fault that ends the load, if one does. Afterwards the log
of the loader holds the texts of these notes, each once and where it came first. -/
theorem notes_of_reload (catalog : Catalog) (searchPath : List ModuleRoot) (settings : Settings)
    (ops : List Operation) (files : Files) :
    let l := ((start catalog searchPath settings).run ops).1
    ∃ notes stop, (start catalog searchPath settings).discovery.LoadNotes files notes stop ∧
      (l.reload files).2.events.filter (·.target = "spindle::discovery") = notes.map .noted ∧
      (l.reload files).1.notes.entries = (notes.map (·.text)).eraseDups ∧
      ∀ fault, (l.reload files).2.outcome = .error (.fatal fault) ↔ stop = some fault := by
  intro l
  have hdiscovery : l.discovery = (start catalog searchPath settings).discovery :=
    discovery_run _ ops
  rw [← hdiscovery]
  obtain ⟨notes, stop, hnotes⟩ := Discovery.exists_loadNotes l.discovery files
  have hevents : (l.dryRun files).events.filterMap Event.note? = notes :=
    Discovery.notes_survey hnotes
  refine ⟨notes, stop, hnotes, ?_, ?_, fun fault => ?_⟩
  · obtain ⟨last, hlast, hreload⟩ := events_reload l files
    rw [Event.filter_target, hreload, List.filterMap_append, hevents, List.filterMap_cons, hlast]
    exact congrArg _ (List.append_nil _)
  · rw [notes_reload, NoteLog.entries_ofEvents, hevents]
  · rw [outcome_reload_eq_error_iff, ← Discovery.or_passFault?_of_loadNotes hnotes]
    exact Discovery.outcome_survey_eq_fatal_iff

end Loader

end PluginDiscovery
