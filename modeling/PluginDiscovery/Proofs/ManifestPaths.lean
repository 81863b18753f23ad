import Mathlib.Data.List.Basic
import PluginDiscovery.Loader
import PluginDiscovery.Proofs.Passage
import PluginDiscovery.Proofs.Validation

/-!
# Files that both manifests name

Which file a path leads to is told by its components alone (`Files.Opens.destination_eq`), so paths
that are spelt differently lead to one file if they differ only in slashes and dots. Validation
compares the spelling of the manifest paths. `files_of_accepted_manifests` says what this comes to:
where the components are the same both passes of a loader read the same files, and paths that are
spelt plainly never have the same components.
-/

namespace PluginDiscovery

namespace Path

/-- Nothing but components is written in a path. -/
def Plain (path : String) : Prop := ∀ segment ∈ segments path, ¬(segment = "" ∨ segment = ".")

theorem Plain.components_eq {path : String} (h : Plain path) : components path = segments path := by
  unfold components
  rw [List.filter_eq_self]
  intro segment hsegment
  simpa [not_or] using h segment hsegment

/-- A path can be put together from its segments. -/
theorem segments_injective {path other : String} (h : segments path = segments other) :
    path = other := by
  have hparts : path.toList.splitOn '/' = other.toList.splitOn '/' :=
    List.map_injective_iff.2 (fun _ _ heq => String.ofList_inj.1 heq) h
  have hjoined := congrArg (List.intercalate ['/']) hparts
  rw [List.intercalate_splitOn, List.intercalate_splitOn] at hjoined
  exact String.toList_inj.1 hjoined

/-- Two plain paths with the same components are spelt the same. -/
theorem Plain.eq_of_components {path other : String} (h : Plain path) (hother : Plain other)
    (heq : components path = components other) : path = other := by
  rw [h.components_eq, hother.components_eq] at heq
  exact segments_injective heq

theorem same_join_iff {path other : String} (hpath : isAbsolute path = false)
    (hother : isAbsolute other = false) (root : String) :
    same (join root path) (join root other) = true ↔ components path = components other :=
  (goesOn_join hpath root).same_iff (goesOn_join hother root)

end Path

namespace Files

variable {fs : Files} {path other : String} {place : List String}

/-! ## Where a file is found -/

/-- A file is in the folder that all segments but the last one lead to. -/
theorem passage_of_follow_eq_file {segments file : List String} {bytes : List UInt8}
    (h : fs.follow place segments = .file file bytes) :
    ∃ front leaf reached, Path.named segments = Path.named front ++ [leaf] ∧
      fs.Passage place front reached ∧ step reached leaf = file := by
  induction segments generalizing place with
  | nil => cases h
  | cons segment rest ih =>
    by_cases hstays : segment = "" ∨ segment = "."
    · rw [follow_cons_of_stays hstays] at h
      rw [Path.named_cons_of_stays hstays]
      exact ih h
    · rw [Path.named_cons_of_not_stays hstays]
      by_cases henters : fs.Enters place segment
      · rw [follow_cons_of_enters hstays henters] at h
        obtain ⟨front, leaf, reached, hnamed, hpassage, hfile⟩ := ih h
        refine ⟨segment :: front, leaf, reached, ?_, .enters hstays henters hpassage, hfile⟩
        rw [Path.named_cons_of_not_stays hstays, hnamed, List.cons_append]
      · obtain ⟨rfl, hfile⟩ := (follow_cons_of_not_enters hstays henters rest).2 file bytes h
        exact ⟨[], segment, place, rfl, .here place, hfile⟩

/-- Following a path to a file passes through the places that its components lead to. -/
theorem foldl_step_of_follow {segments file : List String} {bytes : List UInt8}
    (h : fs.follow place segments = .file file bytes) :
    (Path.named segments).foldl step place = file := by
  obtain ⟨front, leaf, reached, hnamed, hpassage, hfile⟩ := passage_of_follow_eq_file h
  rw [hnamed, List.foldl_append, hpassage.foldl_step]
  exact hfile

/-- A relative path leads on from where its root leads. -/
theorem destination_join (h : Path.isAbsolute path = false) (root : String) :
    fs.destination (Path.join root path) =
      (Path.components path).foldl step (fs.destination root) := by
  unfold destination
  rw [start_eq_of_goesOn (Path.goesOn_join h root), Path.components_join h, List.foldl_append]

/-- Opening a path gives the content of a file. -/
def Opens (fs : Files) (path : String) (file : List String) : Prop :=
  ∃ bytes, fs.openPath path = .opened { bytes } ∧
    fs.follow (fs.start path) (Path.segments path) = .file file bytes

theorem Opens.destination_eq {file : List String} (h : fs.Opens path file) :
    fs.destination path = file := by
  obtain ⟨bytes, -, hfollow⟩ := h
  exact foldl_step_of_follow hfollow

/-- Two paths below a root that do not lead up open the same file if and only if they have the same
components. -/
theorem Opens.eq_iff {root : String} {file file' : List String}
    (hpath : Path.isAbsolute path = false) (hother : Path.isAbsolute other = false)
    (hdots : ".." ∉ Path.components path) (hdots' : ".." ∉ Path.components other)
    (h : fs.Opens (Path.join root path) file) (h' : fs.Opens (Path.join root other) file') :
    file = file' ↔ Path.components path = Path.components other := by
  have hfile := h.destination_eq
  have hfile' := h'.destination_eq
  rw [destination_join hpath, foldl_step hdots] at hfile
  rw [destination_join hother, foldl_step hdots'] at hfile'
  rw [← hfile, ← hfile']
  exact List.append_right_inj (fs.destination root)

/-! ## Paths that end in a name -/

theorem Accepts.opens {file : List String} {bytes : List UInt8} (h : Accepts path)
    (hends : Path.EndsInName path)
    (hfollow : fs.follow (fs.start path) (Path.segments path) = .file file bytes) :
    fs.Opens path file := by
  refine ⟨bytes, ?_, hfollow⟩
  unfold openPath
  rw [hfollow]
  simp only [h.contains_eq, hends.isEmpty_eq, Nat.not_le.2 h.2, Bool.false_eq_true, if_false]

/-- Two paths below a root that end in names open alike if they have the same components. -/
theorem openPath_join_congr {root : String} (hpath : Path.isAbsolute path = false)
    (hother : Path.isAbsolute other = false) (hends : Path.EndsInName path)
    (hends' : Path.EndsInName other) (heq : Path.components path = Path.components other)
    (haccepts : Accepts (Path.join root path)) (haccepts' : Accepts (Path.join root other)) :
    fs.openPath (Path.join root path) = fs.openPath (Path.join root other) := by
  have hjoin := hends.join hpath root
  have hjoin' := hends'.join hother root
  have hfollow :
      fs.follow (fs.start (Path.join root path)) (Path.segments (Path.join root path)) =
        fs.follow (fs.start (Path.join root other)) (Path.segments (Path.join root other)) := by
    rw [← follow_components hjoin, ← follow_components hjoin',
      start_eq_of_goesOn (Path.goesOn_join hpath root),
      start_eq_of_goesOn (Path.goesOn_join hother root), Path.components_join hpath,
      Path.components_join hother, heq]
  unfold openPath
  rw [hfollow]
  simp only [haccepts.contains_eq, haccepts'.contains_eq, hjoin.isEmpty_eq, hjoin'.isEmpty_eq,
    Nat.not_le.2 haccepts.2, Nat.not_le.2 haccepts'.2]

end Files

namespace Config

variable {config : Config}

/-- What both passes of the loader of an accepted configuration find at the manifest paths. Below
every root the paths are the same if and only if they have the same components, and then, if they
end in names, they open alike. If the paths do not lead up, files that the two passes read in one
root are the same exactly in that case. It never arises when both paths are plain: then they have
different components. -/
theorem files_of_accepted_manifests (catalog : Catalog) (h : validate config = .ok config) :
    let manifest := (Loader.ofConfig catalog config).settings.manifest
    (∀ root, Path.same (Path.join root (manifest .interfaces))
          (Path.join root (manifest .implementations)) = true ↔
        Path.components (manifest .interfaces) = Path.components (manifest .implementations)) ∧
      (Path.components (manifest .interfaces) = Path.components (manifest .implementations) →
        (∀ side, Path.EndsInName (manifest side)) →
        ∀ root, (∀ side, Files.Accepts (Path.join root (manifest side))) →
          ∀ files, ModuleRoot.openPath files (manifest .interfaces) (.folder root) =
            ModuleRoot.openPath files (manifest .implementations) (.folder root)) ∧
      ((∀ side, ".." ∉ Path.components (manifest side)) →
        ∀ files root file file', Files.Opens files (Path.join root (manifest .interfaces)) file →
          Files.Opens files (Path.join root (manifest .implementations)) file' →
          (file = file' ↔
            Path.components (manifest .interfaces) = Path.components (manifest .implementations))) ∧
      ((∀ side, Path.Plain (manifest side)) →
        Path.components (manifest .interfaces) ≠ Path.components (manifest .implementations)) := by
  intro manifest
  have hsensible := sensible_of_validate h
  have hrelative : ∀ side, Path.isAbsolute (manifest side) = false := by
    intro side
    rw [← Bool.not_eq_true, isAbsolute_iff]
    cases side with
    | interfaces => exact hsensible.interfaceManifest.2
    | implementations => exact hsensible.implementationManifest.2
  refine ⟨?_, ?_, ?_, ?_⟩
  · intro root
    exact Path.same_join_iff (hrelative _) (hrelative _) root
  · intro heq hends root haccepts files
    exact Files.openPath_join_congr (hrelative _) (hrelative _) (hends _) (hends _) heq
      (haccepts _) (haccepts _)
  · intro hdots files root file file' hfile hfile'
    exact hfile.eq_iff (hrelative _) (hrelative _) (hdots _) (hdots _) hfile'
  · intro hplain heq
    have hspelt := (hplain .interfaces).eq_of_components (hplain .implementations) heq
    exact hsensible.differ (congrArg Text.trim hspelt)

/-- Manifest paths that differ in a slash. -/
def doubledSlash : Side → String
  | .interfaces => "acme/plugins"
  | .implementations => "acme//plugins"

/-- A configuration with these manifest paths. -/
def doubled : Config :=
  { discovery := { interfaceManifest := doubledSlash .interfaces
                   implementationManifest := doubledSlash .implementations
                   searchPath := ["modules"] } }

/-- The folder `modules` with one manifest in it. -/
def oneManifest : Files :=
  { folders := [["modules"], ["modules", "acme"]]
    files := [(["modules", "acme", "plugins"], bytesOf "acme.I\nacme.C\n")] }

/-- The configuration is accepted, and yet both passes read the one manifest that there is. -/
theorem oneManifest_read_twice :
    validate doubled = .ok doubled ∧
      Path.components (doubledSlash .interfaces) = Path.components (doubledSlash .implementations) ∧
      (∀ side, ".." ∉ Path.components (doubledSlash side)) ∧
      (∀ side, Path.EndsInName (doubledSlash side)) ∧
      (∀ side, Files.Accepts (Path.join "modules" (doubledSlash side))) ∧
      (∀ side, Files.Opens oneManifest (Path.join "modules" (doubledSlash side))
        ["modules", "acme", "plugins"]) ∧
      ModuleRoot.openPath oneManifest (doubledSlash .interfaces) (.folder "modules") =
        ModuleRoot.openPath oneManifest (doubledSlash .implementations) (.folder "modules") := by
  have hvalid : validate doubled = .ok doubled := by decide +kernel
  have heq : Path.components (doubledSlash .interfaces) =
      Path.components (doubledSlash .implementations) := by decide
  have hdots : ∀ side, ".." ∉ Path.components (doubledSlash side) := by
    intro side
    cases side <;> decide
  have hends : ∀ side, Path.EndsInName (doubledSlash side) := by
    intro side
    cases side with
    | interfaces => exact ⟨["acme"], "plugins", by decide, by decide⟩
    | implementations => exact ⟨["acme", ""], "plugins", by decide, by decide⟩
  have hrelative : ∀ side, Path.isAbsolute (doubledSlash side) = false := by
    intro side
    cases side <;> decide
  have haccepts : ∀ side, Files.Accepts (Path.join "modules" (doubledSlash side)) := by
    intro side
    cases side <;> exact ⟨by decide, by decide⟩
  have hfollow : ∀ side,
      oneManifest.follow (oneManifest.start (Path.join "modules" (doubledSlash side)))
        (Path.segments (Path.join "modules" (doubledSlash side))) =
        .file ["modules", "acme", "plugins"] (bytesOf "acme.I\nacme.C\n") := by
    intro side
    have hjoin := (hends side).join (hrelative side) "modules"
    rw [← Files.follow_components hjoin]
    have hcomponents : Path.components (Path.join "modules" (doubledSlash side)) =
        ["modules", "acme", "plugins"] := by
      cases side <;> decide
    have hstart : oneManifest.start (Path.join "modules" (doubledSlash side)) = [] := by
      cases side <;> decide
    rw [hcomponents, hstart]
    rfl
  have hopens : ∀ side, Files.Opens oneManifest (Path.join "modules" (doubledSlash side))
      ["modules", "acme", "plugins"] := by
    intro side
    exact (haccepts side).opens ((hends side).join (hrelative side) "modules") (hfollow side)
  have hmanifest : (Loader.ofConfig (.ofList []) doubled).settings.manifest = doubledSlash := by
    funext side
    cases side <;> rfl
  have hfiles := files_of_accepted_manifests (.ofList []) hvalid
  rw [hmanifest] at hfiles
  obtain ⟨-, hopen, -, -⟩ := hfiles
  exact ⟨hvalid, heq, hdots, hends, haccepts, hopens,
    hopen heq hends "modules" haccepts oneManifest⟩

end Config

end PluginDiscovery
