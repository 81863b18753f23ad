import Mathlib.Data.List.Induction
import PluginDiscovery.ModuleTree
import PluginDiscovery.Proofs.Folders
import PluginDiscovery.Proofs.ManifestLines

/-!
# Writing and reading back module trees

A module tree is what a sequence of changes has made of an empty folder: modules are mentioned,
manifests are written, and modules are cleared. The folder may be anywhere in a file system, and be
given by an absolute path or from the working folder. All manifests lie at one depth below it, so
the folder is flat, and each change is told by what it does to the content of every manifest
(`Change.effect?`). What the whole sequence comes to is then known without the file system: the
modules in the order of their first mention, and for each manifest the lines of the last write that
no clearing has followed (`Stands`, `stands_ofChanges`).

The main statement, `read_of_changes`, is that reading the manifests back lists just these lines.
-/

namespace PluginDiscovery

namespace ModuleTree

/-- A change to a module tree. -/
inductive Change where
  /-- A module is mentioned. -/
  | mention (module : String)
  /-- The manifest of one side of a module is written. -/
  | write (side : Side) (module : String) (lines : List String)
  /-- Both manifests of a module are removed. -/
  | clear (module : String)

namespace Change

/-- The module that a change is about. -/
def module : Change → String
  | mention module => module
  | write _ module _ => module
  | clear module => module

/-- The lines that a change writes. -/
def lines : Change → List String
  | write _ _ lines => lines
  | _ => []

/-- What a change makes of a manifest of a module: it leaves it alone, removes it, or gives it
lines. -/
def effect? (module : String) (side : Side) : Change → Option (Option (List String))
  | mention _ => none
  | write side' module' lines => if module' = module ∧ side' = side then some (some lines) else none
  | clear module' => if module' = module then some none else none

end Change

/-- Makes a change. -/
def perform (tree : ModuleTree) : Change → ModuleTree
  | .mention module => tree.mention module
  | .write side module lines => tree.writeLines side module lines
  | .clear module => tree.clear module

/-- The tree that changes make of one without modules. The manifests are at their default paths. -/
def ofChanges (files : Files) (root standardNamespace : String) (changes : List Change) :
    ModuleTree :=
  changes.foldl perform { root, settings := .withNamespace standardNamespace, files }

/-- The modules of changes, each where it comes first. -/
def mentioned (changes : List Change) : List String := (changes.map (·.module)).eraseDups

/-- The lines that were written last to a manifest of a module, unless the module was cleared
after that. -/
def written? (changes : List Change) (module : String) (side : Side) : Option (List String) :=
  (changes.reverse.findSome? (·.effect? module side)).join

/-- The bytes of lines, each with a line feed at its end. -/
def bytesOfLines (lines : List String) : List UInt8 :=
  bytesOf (String.join (lines.map fun line => line ++ "\n"))

/-- The path of a manifest of a module. -/
def manifestPath (root module : String) (side : Side) : String :=
  Path.join (Path.join root module) (Settings.standard.manifest side)

/-- A change that the file system can make: its module is one folder, and both manifests in it have
paths that are not too long. A line that is written is one line. -/
structure Change.Allowed (root : String) (change : Change) : Prop where
  /-- The module is one component of a path. -/
  name : Path.IsName change.module
  /-- A folder can have the name of the module. -/
  short : change.module.utf8ByteSize ≤ Files.nameLimit
  /-- The file system takes the paths of both manifests. -/
  accepts : ∀ side, Files.Accepts (manifestPath root change.module side)
  /-- No line holds another one. -/
  feedless : ∀ line ∈ change.lines, '\n' ∉ line.toList

/-! ## What changes come to -/

section Changes

variable {changes : List Change} {change : Change} {module : String} {side : Side}

theorem mentioned_concat (changes : List Change) (change : Change) :
    mentioned (changes ++ [change]) =
      mentioned changes ++ if change.module ∈ mentioned changes then [] else [change.module] := by
  unfold mentioned
  rw [List.map_append, List.map_singleton, eraseDups_concat]
  simp only [List.mem_eraseDups]

theorem mem_mentioned_iff :
    module ∈ mentioned changes ↔ ∃ change ∈ changes, change.module = module := by
  unfold mentioned
  rw [List.mem_eraseDups, List.mem_map]

theorem written?_concat (changes : List Change) (change : Change) (module : String) (side : Side) :
    written? (changes ++ [change]) module side =
      (change.effect? module side).getD (written? changes module side) := by
  unfold written?
  rw [List.reverse_concat, List.findSome?_cons]
  cases change.effect? module side <;> rfl

theorem mem_of_written? {lines : List String} (h : written? changes module side = some lines) :
    .write side module lines ∈ changes := by
  induction changes using List.reverseRecOn with
  | nil => cases h
  | append_singleton changes change ih =>
    rw [written?_concat] at h
    cases change with
    | mention other => exact List.mem_append_left _ (ih h)
    | write other module' lines' =>
      rw [Change.effect?] at h
      split at h
      · next heq =>
        obtain ⟨rfl, rfl⟩ := heq
        cases h
        exact List.mem_append_right _ List.mem_cons_self
      · exact List.mem_append_left _ (ih h)
    | clear other =>
      rw [Change.effect?] at h
      split at h
      · cases h
      · exact List.mem_append_left _ (ih h)

end Changes

/-! ## Paths of modules and manifests -/

section Paths

variable {root module : String} {side : Side}

theorem relative_manifest (side : Side) :
    Path.isAbsolute (Settings.standard.manifest side) = false := by
  cases side <;> decide

/-- The last segment of the path of a manifest. -/
def manifestName : Side → String
  | .interfaces => "extension-points"
  | .implementations => "implementations"

theorem manifestName_inj {side side' : Side} :
    manifestName side = manifestName side' ↔ side = side' := by
  cases side <;> cases side' <;> decide

theorem segments_manifest (side : Side) :
    Path.segments (Settings.standard.manifest side) =
      ["META-INF", "spindle"] ++ [manifestName side] := by
  cases side <;> decide

theorem components_manifest (side : Side) :
    Path.components (Settings.standard.manifest side) =
      ["META-INF", "spindle", manifestName side] := by
  cases side <;> decide

theorem endsInName_manifest (side : Side) : Path.EndsInName (Settings.standard.manifest side) := by
  refine ⟨["META-INF", "spindle"], manifestName side, segments_manifest side, ?_⟩
  cases side <;> decide

/-- The names on the way from the root to a manifest. -/
def manifestNames (module : String) (side : Side) : List String :=
  [module, "META-INF", "spindle", manifestName side]

/-- How far below the root the manifests are. -/
def manifestDepth : Nat := 4

theorem length_manifestNames (module : String) (side : Side) :
    (manifestNames module side).length = manifestDepth := rfl

theorem manifestNames_inj {module' : String} {side' : Side} :
    manifestNames module side = manifestNames module' side' ↔ module = module' ∧ side = side' := by
  simp [manifestNames, manifestName_inj]

theorem isName_of_mem_manifest {name : String} (side : Side)
    (h : name ∈ ["META-INF", "spindle", manifestName side]) :
    Path.IsName name ∧ name.utf8ByteSize ≤ Files.nameLimit := by
  simp only [List.mem_cons, List.not_mem_nil, or_false] at h
  rcases h with rfl | rfl | rfl
  · exact ⟨⟨by decide, by decide, by decide, by decide⟩, by decide⟩
  · exact ⟨⟨by decide, by decide, by decide, by decide⟩, by decide⟩
  · cases side <;> exact ⟨⟨by decide, by decide, by decide, by decide⟩, by decide⟩

theorem goesOn_folder (h : Path.IsName module) (root : String) :
    Path.GoesOn root [module] (Path.join root module) := by
  rw [← h.components_eq]
  exact Path.goesOn_join h.isAbsolute_eq root

theorem goesOn_manifestPath (h : Path.IsName module) (root : String) (side : Side) :
    Path.GoesOn root (manifestNames module side) (manifestPath root module side) := by
  have hgoesOn := (goesOn_folder h root).join (relative_manifest side)
  rw [components_manifest] at hgoesOn
  exact hgoesOn

end Paths

namespace Change.Allowed

variable {root : String} {change other : Change}

theorem names (h : change.Allowed root) (side : Side) :
    Files.Names root (manifestNames change.module side)
      (manifestPath root change.module side) := by
  refine ⟨goesOn_manifestPath h.name root side, ?_,
    (endsInName_manifest side).join (relative_manifest side) _, h.accepts side⟩
  unfold manifestNames
  rw [List.forall_mem_cons]
  exact ⟨⟨h.name, h.short⟩, fun _ => isName_of_mem_manifest side⟩

theorem same_folder_iff (h : change.Allowed root) (h' : other.Allowed root) :
    Path.same (Path.join root change.module) (Path.join root other.module) = true ↔
      change.module = other.module := by
  rw [(goesOn_folder h.name root).same_iff (goesOn_folder h'.name root), List.singleton_inj]

end Change.Allowed

/-! ## What a tree comes to -/

/-- What a tree holds after changes, if its root leads to a folder that was empty before them. -/
structure Stands (root : String) (base : List String) (standardNamespace : String)
    (changes : List Change) (tree : ModuleTree) : Prop where
  /-- The root stays. -/
  root_eq : tree.root = root
  /-- The settings stay. -/
  settings_eq : tree.settings = .withNamespace standardNamespace
  /-- Every module that was mentioned has its folder, in the order of first mention. -/
  modules_eq : tree.modules = (mentioned changes).map (Path.join root)
  /-- Files lie as deep as manifests. -/
  flat : tree.files.Flat root base manifestDepth
  /-- Each manifest holds what was written to it last. -/
  content_eq : ∀ module side,
    tree.files.content? (base ++ manifestNames module side) =
      (written? changes module side).map bytesOfLines

namespace Stands

variable {root standardNamespace : String} {base : List String} {changes : List Change}
  {change : Change} {tree : ModuleTree}

theorem folder_eq (h : Stands root base standardNamespace changes tree) (module : String) :
    tree.folder module = Path.join root module := by
  rw [folder, h.root_eq]

theorem any_same_iff (h : Stands root base standardNamespace changes tree)
    (hall : ∀ other ∈ changes, other.Allowed root) (hchange : change.Allowed root) :
    tree.modules.any (Path.same (tree.folder change.module)) = true ↔
      change.module ∈ mentioned changes := by
  rw [h.modules_eq, h.folder_eq, List.any_map, List.any_eq_true]
  constructor
  · rintro ⟨module, hmodule, hsame⟩
    obtain ⟨other, hother, rfl⟩ := mem_mentioned_iff.1 hmodule
    rw [(hchange.same_folder_iff (hall other hother)).1 hsame]
    exact hmodule
  · intro hmem
    exact ⟨change.module, hmem, (hchange.same_folder_iff hchange).2 rfl⟩

/-- Every change first mentions its module. -/
theorem mention (h : Stands root base standardNamespace changes tree)
    (hall : ∀ other ∈ changes, other.Allowed root) (hchange : change.Allowed root) :
    Stands root base standardNamespace (changes ++ [Change.mention change.module])
      (tree.mention change.module) := by
  have hwritten : ∀ module side, written? (changes ++ [Change.mention change.module]) module side =
      written? changes module side := by
    intro module side
    rw [written?_concat]
    rfl
  have hmentioned : mentioned (changes ++ [Change.mention change.module]) = mentioned changes ++
      if change.module ∈ mentioned changes then [] else [change.module] :=
    mentioned_concat changes (.mention change.module)
  by_cases hknown : change.module ∈ mentioned changes
  · -- a module that is known changes nothing
    have hsame : tree.mention change.module = tree := by
      rw [ModuleTree.mention, if_pos ((h.any_same_iff hall hchange).2 hknown)]
    rw [hsame]
    refine ⟨h.root_eq, h.settings_eq, ?_, h.flat, ?_⟩
    · rw [hmentioned, if_pos hknown, List.append_nil]
      exact h.modules_eq
    · intro module side
      rw [hwritten]
      exact h.content_eq module side
  · -- a new module gets a folder, which is less deep than the manifests
    have hnew : tree.mention change.module =
        { tree with
          files := tree.files.makeFolder (Path.join root change.module)
          modules := tree.modules ++ [Path.join root change.module] } := by
      rw [ModuleTree.mention, if_neg, h.folder_eq]
      rw [h.any_same_iff hall hchange]
      exact hknown
    have hdots : ".." ∉ [change.module] :=
      fun hmem => hchange.name.ne_dots (List.mem_singleton.1 hmem).symm
    have hflat : (tree.files.makeFolder (Path.join root change.module)).Flat root base
        manifestDepth :=
      h.flat.makeFolder (goesOn_folder hchange.name root) hdots (by simp [manifestDepth])
    rw [hnew]
    refine ⟨h.root_eq, h.settings_eq, ?_, ?_, ?_⟩
    · rw [hmentioned, if_neg hknown, List.map_append, h.modules_eq]
      rfl
    · exact hflat
    · intro module side
      rw [hwritten]
      exact (Files.content?_makeFolder _).trans (h.content_eq module side)

/-- The manifests are at the same paths in all trees. -/
theorem manifest_eq (h : Stands root base standardNamespace changes tree) (module : String)
    (side : Side) :
    Path.join (tree.folder module) (tree.settings.manifest side) =
      manifestPath root module side := by
  rw [h.folder_eq, h.settings_eq]
  cases side <;> rfl

/-- A change that leaves all but files as mentioning its module does. -/
theorem replace_files {files : Files}
    (h : Stands root base standardNamespace (changes ++ [Change.mention change.module]) tree)
    (hflat : files.Flat root base manifestDepth)
    (hcontent : ∀ module side,
      files.content? (base ++ manifestNames module side) =
        (change.effect? module side).elim (tree.files.content? (base ++ manifestNames module side))
          (Option.map bytesOfLines)) :
    Stands root base standardNamespace (changes ++ [change]) { tree with files } := by
  refine ⟨h.root_eq, h.settings_eq, ?_, hflat, ?_⟩
  · have hmentioned := mentioned_concat changes (.mention change.module)
    rw [mentioned_concat]
    exact h.modules_eq.trans (congrArg _ hmentioned)
  · intro module side
    have hheld := h.content_eq module side
    rw [written?_concat] at hheld ⊢
    rw [hcontent module side]
    cases change.effect? module side with
    | none => exact hheld
    | some lines => rfl

/-- Writing gives one manifest its lines. -/
theorem write {side : Side} {module : String} {lines : List String}
    (h : Stands root base standardNamespace changes tree)
    (hall : ∀ other ∈ changes, other.Allowed root)
    (hchange : (Change.write side module lines).Allowed root) :
    Stands root base standardNamespace (changes ++ [Change.write side module lines])
      (tree.writeLines side module lines) := by
  have hmention : Stands root base standardNamespace (changes ++ [Change.mention module])
      (tree.mention module) := h.mention hall hchange
  have hnames : Files.Names root (manifestNames module side) (manifestPath root module side) :=
    hchange.names side
  have hwrite : tree.writeLines side module lines =
      { tree.mention module with
        files := (tree.mention module).files.write (manifestPath root module side)
          (bytesOfLines lines) } := by
    rw [← hmention.manifest_eq module side, hmention.settings_eq, ← h.settings_eq]
    rfl
  rw [hwrite]
  have hlength := length_manifestNames module side
  refine hmention.replace_files (hmention.flat.write hnames hlength _) ?_
  intro other side'
  rw [hmention.flat.leads.content?_write hnames.goesOn hnames.no_dots, Change.effect?]
  simp only [List.append_cancel_left_eq, manifestNames_inj]
  by_cases heq : module = other ∧ side = side'
  · rw [if_pos heq, if_pos heq]
    rfl
  · rw [if_neg heq, if_neg heq]
    rfl

/-- Clearing removes both manifests of a module. -/
theorem clear {module : String} (h : Stands root base standardNamespace changes tree)
    (hall : ∀ other ∈ changes, other.Allowed root)
    (hchange : (Change.clear module).Allowed root) :
    Stands root base standardNamespace (changes ++ [Change.clear module]) (tree.clear module) := by
  have hmention : Stands root base standardNamespace (changes ++ [Change.mention module])
      (tree.mention module) := h.mention hall hchange
  have hnames : ∀ side, Files.Names root (manifestNames module side)
      (manifestPath root module side) := hchange.names
  have hclear : tree.clear module =
      { tree.mention module with
        files := ((tree.mention module).files.remove (manifestPath root module .interfaces)).remove
          (manifestPath root module .implementations) } := by
    rw [← hmention.manifest_eq module .interfaces, ← hmention.manifest_eq module .implementations]
    rfl
  have hlength := length_manifestNames module
  have hflat := hmention.flat.remove (hnames .interfaces) (hlength .interfaces)
  rw [hclear]
  refine hmention.replace_files (hflat.remove (hnames .implementations)
    (hlength .implementations)) ?_
  intro other side
  rw [hflat.content?_remove (hnames .implementations) (hlength .implementations),
    hmention.flat.content?_remove (hnames .interfaces) (hlength .interfaces), Change.effect?]
  simp only [List.append_cancel_left_eq, manifestNames_inj]
  by_cases heq : module = other
  · cases side <;> simp [heq]
  · simp [heq]

theorem perform (h : Stands root base standardNamespace changes tree)
    (hall : ∀ other ∈ changes, other.Allowed root) (hchange : change.Allowed root) :
    Stands root base standardNamespace (changes ++ [change]) (tree.perform change) := by
  cases change with
  | mention module => exact h.mention hall hchange
  | write side module lines => exact h.write hall hchange
  | clear module => exact h.clear hall hchange

end Stands

theorem stands_ofChanges {files : Files} {root : String} {base : List String}
    (hroot : files.Vacant root base) (standardNamespace : String) {changes : List Change}
    (hall : ∀ change ∈ changes, change.Allowed root) :
    Stands root base standardNamespace changes
      (ofChanges files root standardNamespace changes) := by
  induction changes using List.reverseRecOn with
  | nil =>
    refine ⟨rfl, rfl, rfl, .of_vacant hroot (by decide), ?_⟩
    intro module side
    exact hroot.no_file (manifestNames module side)
  | append_singleton changes change ih =>
    rw [List.forall_mem_append, List.forall_mem_singleton] at hall
    unfold ofChanges at ih ⊢
    rw [List.foldl_append]
    exact (ih hall.1).perform hall.1 hall.2

/-! ## Reading back -/

theorem lines_bytesOfLines {lines : List String} (h : ∀ line ∈ lines, '\n' ∉ line.toList) :
    (Stream.lines { bytes := bytesOfLines lines }) = (lines, none) := by
  have hlast : '\n' ∉ "".toList := by simp
  have hread := Stream.lines_ofText h hlast
  rw [String.append_empty, if_pos rfl, List.append_nil] at hread
  exact hread

section Reading

variable {root standardNamespace : String} {base : List String} {changes : List Change}
  {change : Change} {tree : ModuleTree}

/-- A manifest can be opened if it is written. -/
theorem Stands.openPath_eq (h : Stands root base standardNamespace changes tree)
    (hchange : change.Allowed root) (side : Side) :
    (ModuleRoot.folder (Path.join root change.module)).openPath tree.files
        (Settings.standard.manifest side) =
      (written? changes change.module side).elim .absent fun lines =>
        .opened { bytes := bytesOfLines lines } := by
  have hpath : Path.join (Path.join root change.module) (Settings.standard.manifest side) =
      manifestPath root change.module side := rfl
  rw [ModuleRoot.openPath, hpath,
    h.flat.openPath_eq (hchange.names side) (length_manifestNames _ side), h.content_eq]
  cases written? changes change.module side <;> rfl

/-- What a module that was mentioned lists are the lines that were written. -/
theorem Stands.fragment_eq (h : Stands root base standardNamespace changes tree)
    (hall : ∀ other ∈ changes, other.Allowed root) (hchange : change ∈ changes) (side : Side) :
    Manifest.Readable tree.files (Settings.standard.manifest side)
        (.folder (Path.join root change.module)) ∧
      Manifest.listingsOf tree.files (Settings.standard.manifest side)
          (.folder (Path.join root change.module)) =
        (written? changes change.module side).elim [] fun lines =>
          Manifest.listingsNamed
            s!"{Path.join root change.module}/{Settings.standard.manifest side}"
            (lines.map Text.trim) := by
  have hopen := h.openPath_eq (hall change hchange) side
  cases hwritten : written? changes change.module side with
  | none =>
    rw [hwritten] at hopen
    exact Manifest.readable_of_absent hopen
  | some lines =>
    rw [hwritten] at hopen
    have hwrite := hall _ (mem_of_written? hwritten)
    have hread : Stream.lines { bytes := bytesOfLines lines } = (lines, none) :=
      lines_bytesOfLines hwrite.feedless
    obtain ⟨hreadable, hlistings⟩ := Manifest.readable_of_lines hopen hread
    refine ⟨hreadable, ?_⟩
    rw [hlistings, Manifest.listings_eq_listingsNamed]
    rfl

end Reading

/-- Changes are made below a root that leads to an empty folder of a file system. The search path
of the tree is its modules, in the order in which changes first mentioned them. Reading a manifest
over it lists, module by module, what is on the lines that were written last and not cleared since:
one name for each line that is not blank, with the number of the line. -/
theorem read_of_changes {files : Files} {root : String} {base : List String}
    (hroot : files.Vacant root base) (standardNamespace : String) {changes : List Change}
    (hall : ∀ change ∈ changes, change.Allowed root) :
    (ofChanges files root standardNamespace changes).searchPath =
        (mentioned changes).map (fun module => .folder (Path.join root module)) ∧
      ∀ side, (Manifest.read (ofChanges files root standardNamespace changes).files
          (Settings.standard.manifest side)
          (ofChanges files root standardNamespace changes).searchPath).outcome =
        .ok ((mentioned changes).flatMap fun module =>
          (written? changes module side).elim [] fun lines =>
            Manifest.listingsNamed
              s!"{Path.join root module}/{Settings.standard.manifest side}"
              (lines.map Text.trim)) := by
  have hstands := stands_ofChanges hroot standardNamespace hall
  have hsearch : (ofChanges files root standardNamespace changes).searchPath =
      (mentioned changes).map fun module => .folder (Path.join root module) := by
    unfold searchPath
    rw [hstands.modules_eq, List.map_map]
    rfl
  refine ⟨hsearch, fun side => ?_⟩
  rw [Manifest.outcome_read, hsearch]
  have hreadable : ∀ fragment ∈ (mentioned changes).map
      (fun module => ModuleRoot.folder (Path.join root module)),
      Manifest.Readable (ofChanges files root standardNamespace changes).files
        (Settings.standard.manifest side) fragment := by
    rw [List.forall_mem_map]
    intro module hmodule
    obtain ⟨change, hchange, rfl⟩ := mem_mentioned_iff.1 hmodule
    exact (hstands.fragment_eq hall hchange side).1
  rw [Manifest.firstFault?_eq_none_iff.2 hreadable]
  refine congrArg Except.ok ?_
  unfold Manifest.allListings
  rw [List.flatMap_map]
  refine List.flatMap_congr fun module hmodule => ?_
  obtain ⟨change, hchange, rfl⟩ := mem_mentioned_iff.1 hmodule
  exact (hstands.fragment_eq hall hchange side).2

/-- Changes to two modules: one manifest is written twice, and one is removed again. -/
def rewrites : List Change :=
  [.mention "b", .write .interfaces "a" ["acme.X", "acme.Y"],
    .write .implementations "b" ["acme.P"], .write .interfaces "a" ["", " acme.Z\r"],
    .write .implementations "a" ["acme.Q"], .clear "b", .write .interfaces "b" ["acme.W"]]

/-- An empty folder beside others, one of which holds a manifest. -/
def beside : Files :=
  { working := ["home", "acme"]
    folders := [["tmp"], ["tmp", "tree"], ["tmp", "other"]]
    files := [(["tmp", "other", "implementations"], bytesOf "acme.P\n")] }

/-- The folder is given by its absolute path. -/
theorem read_rewrites :
    beside.Vacant "/tmp/tree" ["tmp", "tree"] ∧
      (∀ change ∈ rewrites, change.Allowed "/tmp/tree") ∧
      (ofChanges beside "/tmp/tree" "acme." rewrites).searchPath =
        [.folder "/tmp/tree/b", .folder "/tmp/tree/a"] ∧
      (Manifest.read (ofChanges beside "/tmp/tree" "acme." rewrites).files
          (Settings.standard.manifest .interfaces)
          (ofChanges beside "/tmp/tree" "acme." rewrites).searchPath).outcome =
        .ok [⟨"/tmp/tree/b/META-INF/spindle/extension-points", 1, "acme.W"⟩,
          ⟨"/tmp/tree/a/META-INF/spindle/extension-points", 2, "acme.Z"⟩] ∧
      (Manifest.read (ofChanges beside "/tmp/tree" "acme." rewrites).files
          (Settings.standard.manifest .implementations)
          (ofChanges beside "/tmp/tree" "acme." rewrites).searchPath).outcome =
        .ok [⟨"/tmp/tree/a/META-INF/spindle/implementations", 1, "acme.Q"⟩] := by
  have hroot : beside.Vacant "/tmp/tree" ["tmp", "tree"] := by
    refine ⟨rfl, ?_, ?_⟩
    · intro names hfolder
      rw [Files.hasFolder_iff] at hfolder
      simpa [beside] using hfolder
    · intro names
      simp [beside, Files.content?, List.lookup]
  have hname : ∀ module ∈ ["a", "b"], Path.IsName module := by
    intro module hmodule
    rcases List.mem_pair.1 hmodule with rfl | rfl <;> constructor <;> decide
  have hshort : ∀ module ∈ ["a", "b"], module.utf8ByteSize ≤ Files.nameLimit := by decide
  have haccepts : ∀ module ∈ ["a", "b"], ∀ side,
      Files.Accepts (manifestPath "/tmp/tree" module side) := by
    intro module hmodule side
    rcases List.mem_pair.1 hmodule with rfl | rfl <;> cases side <;> constructor <;> decide +kernel
  have hmodules : ∀ change ∈ rewrites, change.module ∈ ["a", "b"] := by decide +kernel
  have hlines : ∀ change ∈ rewrites, ∀ line ∈ change.lines, '\n' ∉ line.toList := by
    decide +kernel
  have hall : ∀ change ∈ rewrites, change.Allowed "/tmp/tree" := by
    intro change hchange
    have hmodule := hmodules change hchange
    exact ⟨hname _ hmodule, hshort _ hmodule, haccepts _ hmodule, hlines change hchange⟩
  obtain ⟨hsearch, hread⟩ := read_of_changes hroot "acme." hall
  refine ⟨hroot, hall, ?_, ?_, ?_⟩
  · rw [hsearch]
    decide +kernel
  · rw [hread]
    decide +kernel
  · rw [hread]
    decide +kernel

end ModuleTree

end PluginDiscovery
