import PluginDiscovery.Proofs.Passage

/-!
# Files below a folder

What a path opens that goes on by names from a folder that is there (`Files.Leads`), and what
making, writing or removing it changes, depends on the folder and on the names alone: neither on the
spelling of the path nor on the rest of the file system.

A folder is flat if all files below it lie at one depth, and all folders below it are less deep
(`Files.Flat`). Then no folder stands where a file is looked for, and no file on the way to it, so
what opening a path gives is told by the content at its place alone (`Flat.openPath_eq`). Making
folders, writing files and removing them at that depth keeps a folder flat, and changes the content
of no place but the one that is written or removed. An empty folder is flat for any depth.
-/

namespace PluginDiscovery

namespace Files

variable {fs : Files} {path root : String} {base place names : List String}

/-! ## Making folders -/

theorem hasFolder_iff : fs.hasFolder place = true ↔ place <+: fs.working ∨ place ∈ fs.folders := by
  simp [hasFolder]

theorem hasFolder_of_prefix_start {front : List String} (h : front <+: fs.start path) :
    fs.hasFolder front = true := by
  rw [hasFolder_iff]
  unfold start at h
  split at h
  · rw [List.prefix_nil.1 h]
    exact .inl List.nil_prefix
  · exact .inl h

theorem hasFolder_ensure {folder : List String} :
    (fs.ensure place).hasFolder folder = true ↔ fs.hasFolder folder = true ∨ folder = place := by
  unfold ensure
  by_cases hplace : fs.hasFolder place = true
  · rw [if_pos hplace]
    constructor
    · exact Or.inl
    · rintro (h | rfl)
      · exact h
      · exact hplace
  · rw [if_neg hplace]
    simp only [hasFolder_iff, List.mem_append, List.mem_singleton]
    rw [or_assoc]

theorem hasFolder_foldl_ensure {places : List (List String)} {folder : List String} :
    (places.foldl ensure fs).hasFolder folder = true ↔
      fs.hasFolder folder = true ∨ folder ∈ places := by
  induction places generalizing fs with
  | nil => simp
  | cons place places ih => rw [List.foldl_cons, ih, hasFolder_ensure, List.mem_cons, or_assoc]

/-- Folders that are there need not be made. -/
theorem foldl_ensure_of_hasFolder {places : List (List String)}
    (h : ∀ place ∈ places, fs.hasFolder place = true) : places.foldl ensure fs = fs := by
  induction places with
  | nil => rfl
  | cons place places ih =>
    rw [List.forall_mem_cons] at h
    have hensure : fs.ensure place = fs := if_pos h.1
    rw [List.foldl_cons, hensure]
    exact ih h.2

theorem trail_append (front rest : List String) :
    trail place (front ++ rest) = trail place front ++ trail (front.foldl step place) rest := by
  induction front generalizing place with
  | nil => rfl
  | cons name front ih => rw [List.cons_append, trail, trail, ih, List.foldl_cons, List.cons_append]

theorem mem_trail (h : ".." ∉ names) {folder : List String} :
    folder ∈ trail base names ↔ ∃ front, front ≠ [] ∧ front <+: names ∧ folder = base ++ front := by
  induction names generalizing base with
  | nil =>
    constructor
    · intro hmem
      cases hmem
    · rintro ⟨front, hne, hprefix, -⟩
      exact absurd (List.prefix_nil.1 hprefix) hne
  | cons name names ih =>
    rw [List.mem_cons, not_or] at h
    rw [trail, step_of_ne (Ne.symm h.1), List.mem_cons, ih h.2]
    constructor
    · rintro (rfl | ⟨front, -, hprefix, rfl⟩)
      · exact ⟨[name], by simp, by simp, rfl⟩
      · exact ⟨name :: front, by simp, by simpa using hprefix, by simp⟩
    · rintro ⟨front, hne, hprefix, rfl⟩
      cases front with
      | nil => exact absurd rfl hne
      | cons first front =>
        obtain ⟨rfl, hrest⟩ := List.cons_prefix_cons.1 hprefix
        by_cases hfront : front = []
        · left
          rw [hfront]
        · right
          exact ⟨front, hfront, hrest, by simp⟩

/-! ## Paths that go on from a folder -/

/-- A path leads to a folder that is there. -/
def Leads (fs : Files) (path : String) (folder : List String) : Prop :=
  fs.follow (fs.start path) (Path.segments path) = .folder folder

namespace Leads

theorem passage (h : fs.Leads root base) :
    fs.Passage (fs.start root) (Path.segments root) base :=
  follow_eq_folder_iff.1 h

theorem of_hasFolder {fs' : Files} (hworking : fs'.working = fs.working)
    (hfolders : ∀ folder, fs.hasFolder folder = true → fs'.hasFolder folder = true)
    (h : fs.Leads root base) : fs'.Leads root base := by
  have hstart : fs'.start root = fs.start root := by
    unfold start
    rw [hworking]
  unfold Leads
  rw [hstart, follow_eq_folder_iff]
  exact h.passage.of_enters fun place name => Or.imp_right (And.imp_right (hfolders _))

theorem follow_eq (h : fs.Leads root base) (hpath : Path.GoesOn root names path)
    (hends : Path.EndsInName path) :
    fs.follow (fs.start path) (Path.segments path) = fs.follow base names := by
  rw [← follow_components hends, hpath.components_eq, start_eq_of_goesOn hpath]
  exact h.passage.named.follow_append names

theorem foldl_step_components (h : fs.Leads root base) :
    (Path.components root).foldl step (fs.start root) = base :=
  h.passage.foldl_step

theorem destination_eq (h : fs.Leads root base) (hpath : Path.GoesOn root names path) :
    fs.destination path = names.foldl step base := by
  unfold destination
  rw [hpath.components_eq, start_eq_of_goesOn hpath, List.foldl_append, h.foldl_step_components]

theorem hasFolder (h : fs.Leads root base) : fs.hasFolder base = true :=
  (h.passage.hasFolder fun _ => hasFolder_of_prefix_start).2 base (List.prefix_refl base)

/-- The folders on the way to the one that is there are there as well, so none of them is made. -/
theorem foldl_ensure_trail (h : fs.Leads root base) (names : List String) :
    (trail (fs.start root) (Path.components root ++ names)).foldl ensure fs =
      (trail base names).foldl ensure fs := by
  have htrail : ∀ folder ∈ trail (fs.start root) (Path.components root),
      fs.hasFolder folder = true :=
    (h.passage.hasFolder fun _ => hasFolder_of_prefix_start).1
  rw [trail_append, List.foldl_append, foldl_ensure_of_hasFolder htrail, h.foldl_step_components]

/-- The folders after making those below a folder that is there. -/
theorem hasFolder_foldl_trail (h : fs.Leads root base) (hdots : ".." ∉ names)
    {folder : List String} :
    ((trail base names).foldl ensure fs).hasFolder folder = true ↔
      fs.hasFolder folder = true ∨ ∃ front, front <+: names ∧ folder = base ++ front := by
  rw [hasFolder_foldl_ensure, mem_trail hdots]
  constructor
  · rintro (hfolder | ⟨front, -, hprefix, heq⟩)
    · exact .inl hfolder
    · exact .inr ⟨front, hprefix, heq⟩
  · rintro (hfolder | ⟨front, hprefix, heq⟩)
    · exact .inl hfolder
    · by_cases hnil : front = []
      · rw [hnil, List.append_nil] at heq
        rw [heq]
        exact .inl h.hasFolder
      · exact .inr ⟨front, hnil, hprefix, heq⟩

theorem hasFolder_makeFolder (h : fs.Leads root base) (hpath : Path.GoesOn root names path)
    (hdots : ".." ∉ names) (folder : List String) :
    (fs.makeFolder path).hasFolder folder = true ↔
      fs.hasFolder folder = true ∨ ∃ front, front <+: names ∧ folder = base ++ front := by
  unfold Files.makeFolder
  rw [start_eq_of_goesOn hpath, hpath.components_eq, h.foldl_ensure_trail]
  exact h.hasFolder_foldl_trail hdots

theorem hasFolder_write (h : fs.Leads root base) (hpath : Path.GoesOn root names path)
    (hdots : ".." ∉ names) (hne : names ≠ []) (bytes : List UInt8) (folder : List String) :
    (fs.write path bytes).hasFolder folder = true ↔
      fs.hasFolder folder = true ∨ ∃ front, front <+: names.dropLast ∧ folder = base ++ front := by
  have hdropLast : (Path.components path).dropLast = Path.components root ++ names.dropLast := by
    rw [hpath.components_eq, List.dropLast_append_of_ne_nil hne]
  have hmade : (trail (fs.start path) (Path.components path).dropLast).foldl ensure fs =
      (trail base names.dropLast).foldl ensure fs := by
    rw [start_eq_of_goesOn hpath, hdropLast, h.foldl_ensure_trail]
  have hwrite : (fs.write path bytes).hasFolder folder =
      ((trail base names.dropLast).foldl ensure fs).hasFolder folder := by
    rw [← hmade]
    rfl
  rw [hwrite]
  exact h.hasFolder_foldl_trail fun hmem => hdots (List.dropLast_subset _ hmem)

theorem content?_write (h : fs.Leads root base) (hpath : Path.GoesOn root names path)
    (hdots : ".." ∉ names) (bytes : List UInt8) (other : List String) :
    (fs.write path bytes).content? other =
      if base ++ names = other then some bytes else fs.content? other := by
  rw [Files.content?_write, h.destination_eq hpath, foldl_step hdots]

theorem makeFolder (h : fs.Leads root base) (path : String) :
    (fs.makeFolder path).Leads root base :=
  h.of_hasFolder (working_foldl_ensure _ _) fun _ hfolder => hasFolder_foldl_ensure.2 (.inl hfolder)

theorem write (h : fs.Leads root base) (path : String) (bytes : List UInt8) :
    (fs.write path bytes).Leads root base :=
  h.of_hasFolder (working_foldl_ensure _ _) fun _ hfolder => hasFolder_foldl_ensure.2 (.inl hfolder)

end Leads

theorem content?_makeFolder (other : List String) :
    (fs.makeFolder path).content? other = fs.content? other := by
  unfold makeFolder content?
  rw [files_foldl_ensure]

/-! ## Paths of files -/

/-- A path that goes on from a root by names, ends in one, and is not too long, nor is any of the
names. -/
structure Names (root : String) (names : List String) (path : String) : Prop where
  /-- The path is the root and then the names. -/
  goesOn : Path.GoesOn root names path
  /-- Each name is one component, and not too long. -/
  each : ∀ name ∈ names, Path.IsName name ∧ name.utf8ByteSize ≤ nameLimit
  /-- No slash follows the last name. -/
  ends : Path.EndsInName path
  /-- The whole path is not too long either. -/
  accepts : Accepts path

theorem Names.no_dots (h : Names root names path) : ".." ∉ names :=
  fun hmem => (h.each ".." hmem).1.ne_dots rfl

/-! ## Flat folders -/

/-- A path leads to a folder below which all files lie at one depth, with all folders on the way to
them. No folder is as deep. -/
structure Flat (root : String) (base : List String) (depth : Nat) (fs : Files) : Prop where
  /-- The path leads to the folder. -/
  leads : fs.Leads root base
  /-- The folders in it are less deep than the files. -/
  folder_lt : ∀ names, fs.hasFolder (base ++ names) = true → names.length < depth
  /-- The files are at one depth. -/
  file_eq : ∀ names bytes, fs.content? (base ++ names) = some bytes → names.length = depth
  /-- No folder is missing above a file. -/
  folder_of_file : ∀ names bytes, fs.content? (base ++ names) = some bytes →
    ∀ front, front <+: names → front.length < depth → fs.hasFolder (base ++ front) = true

/-- A path leads to a folder with nothing in it. -/
structure Vacant (fs : Files) (root : String) (base : List String) : Prop where
  /-- The path leads to the folder. -/
  leads : fs.Leads root base
  /-- There is no folder in it. -/
  no_folder : ∀ names, fs.hasFolder (base ++ names) = true → names = []
  /-- There is no file in it, and it is none. -/
  no_file : ∀ names, fs.content? (base ++ names) = none

namespace Flat

variable {depth : Nat}

theorem of_vacant (h : fs.Vacant root base) (hdepth : 0 < depth) : Flat root base depth fs := by
  refine ⟨h.leads, ?_, ?_, ?_⟩
  · intro names hfolder
    rw [h.no_folder names hfolder]
    exact hdepth
  · intro names bytes hfile
    rw [h.no_file names] at hfile
    cases hfile
  · intro names bytes hfile
    rw [h.no_file names] at hfile
    cases hfile

theorem depth_pos (h : fs.Flat root base depth) : 0 < depth := by
  refine h.folder_lt [] ?_
  rw [List.append_nil]
  exact h.leads.hasFolder

/-- Following names as deep as the files finds the file that is there, if there is one. -/
theorem follow_eq (h : fs.Flat root base depth) (front : List String)
    (hnames : ∀ name ∈ names, Path.IsName name ∧ name.utf8ByteSize ≤ nameLimit)
    (hne : names ≠ []) (hdepth : (front ++ names).length = depth) :
    fs.follow (base ++ front) names =
      (fs.content? (base ++ (front ++ names))).elim .nothing
        (.file (base ++ (front ++ names))) := by
  induction names generalizing front with
  | nil => exact absurd rfl hne
  | cons name rest ih =>
    rw [List.forall_mem_cons] at hnames
    obtain ⟨⟨hname, hshort⟩, hrest⟩ := hnames
    have hstays : ¬(name = "" || name = ".") = true := by simpa using hname.not_stays
    by_cases hfolder : fs.hasFolder (base ++ front ++ [name]) = true
    · -- a folder is less deep than the files, so there are more names
      have hlt := h.folder_lt (front ++ [name]) (by rwa [← List.append_assoc])
      have hne' : rest ≠ [] := by
        rintro rfl
        omega
      have hsplit : front ++ name :: rest = front ++ [name] ++ rest := by simp
      rw [hsplit] at hdepth ⊢
      rw [follow_cons_of_enters hname.not_stays (.inr ⟨hshort, hfolder⟩), step_of_ne hname.ne_dots,
        List.append_assoc]
      exact ih (front ++ [name]) hrest hne' hdepth
    · rw [Bool.not_eq_true] at hfolder
      rw [follow, if_neg hstays, if_neg hname.ne_dots, if_neg (Nat.not_lt.2 hshort)]
      simp only [hfolder, Bool.false_eq_true, if_false]
      cases rest with
      | nil =>
        rw [List.append_assoc]
        cases fs.content? (base ++ (front ++ [name])) <;> rfl
      | cons next rest =>
        -- a folder is missing, so there is no file either
        have hlt : (front ++ [name]).length < depth := by
          rw [← hdepth]
          simp
        have hsplit : front ++ name :: next :: rest = front ++ [name] ++ (next :: rest) := by simp
        have hnone : fs.content? (base ++ front ++ [name]) = none := by
          rw [Option.eq_none_iff_forall_ne_some, List.append_assoc]
          intro bytes hbytes
          have heq := h.file_eq _ _ hbytes
          omega
        have hnone' : fs.content? (base ++ (front ++ name :: next :: rest)) = none := by
          rw [Option.eq_none_iff_forall_ne_some, hsplit]
          intro bytes hbytes
          have hthere := h.folder_of_file _ _ hbytes _ (List.prefix_append _ _) hlt
          rw [← List.append_assoc, hfolder] at hthere
          cases hthere
        rw [hnone, hnone']
        rfl

theorem ne_nil (h : fs.Flat root base depth) (hdepth : names.length = depth) : names ≠ [] := by
  rintro rfl
  exact absurd hdepth (Nat.ne_of_lt h.depth_pos)

theorem follow_path (h : fs.Flat root base depth) (hpath : Names root names path)
    (hdepth : names.length = depth) :
    fs.follow (fs.start path) (Path.segments path) =
      (fs.content? (base ++ names)).elim .nothing (.file (base ++ names)) := by
  rw [h.leads.follow_eq hpath.goesOn hpath.ends]
  have hfollow := h.follow_eq [] hpath.each (h.ne_nil hdepth) hdepth
  rw [List.append_nil] at hfollow
  exact hfollow

/-- Opening a path gives what the file there holds. -/
theorem openPath_eq (h : fs.Flat root base depth) (hpath : Names root names path)
    (hdepth : names.length = depth) :
    fs.openPath path =
      (fs.content? (base ++ names)).elim .absent fun bytes => .opened { bytes } := by
  unfold openPath
  rw [h.follow_path hpath hdepth]
  simp only [hpath.accepts.contains_eq, hpath.ends.isEmpty_eq, Nat.not_le.2 hpath.accepts.2,
    Bool.false_eq_true, if_false]
  cases fs.content? (base ++ names) <;> rfl

theorem content?_remove (h : fs.Flat root base depth) (hpath : Names root names path)
    (hdepth : names.length = depth) (other : List String) :
    (fs.remove path).content? other =
      if base ++ names = other then none else fs.content? other := by
  unfold Files.remove
  rw [h.follow_path hpath hdepth]
  cases hcontent : fs.content? (base ++ names) with
  | none =>
    by_cases hother : base ++ names = other
    · rw [if_pos hother, ← hother]
      exact hcontent
    · rw [if_neg hother]
      rfl
  | some bytes => exact lookup_filter_ne _ _ _

/-- Removing a file removes no folder. -/
theorem folders_remove (h : fs.Flat root base depth) (hpath : Names root names path)
    (hdepth : names.length = depth) :
    (fs.remove path).working = fs.working ∧
      ∀ folder, (fs.remove path).hasFolder folder = fs.hasFolder folder := by
  unfold Files.remove
  rw [h.follow_path hpath hdepth]
  cases fs.content? (base ++ names) <;> exact ⟨rfl, fun _ => rfl⟩

/-- Folders can be made as long as they are less deep than files. -/
theorem makeFolder (h : fs.Flat root base depth) (hpath : Path.GoesOn root names path)
    (hdots : ".." ∉ names) (hdepth : names.length < depth) :
    (fs.makeFolder path).Flat root base depth := by
  refine ⟨h.leads.makeFolder path, ?_, ?_, ?_⟩
  · intro other hfolder
    rcases (h.leads.hasFolder_makeFolder hpath hdots _).1 hfolder with hold | ⟨front, hfront, heq⟩
    · exact h.folder_lt other hold
    · rw [List.append_cancel_left heq]
      exact Nat.lt_of_le_of_lt hfront.length_le hdepth
  · intro other bytes hfile
    rw [content?_makeFolder] at hfile
    exact h.file_eq other bytes hfile
  · intro other bytes hfile front hprefix hlt
    rw [content?_makeFolder] at hfile
    exact (h.leads.hasFolder_makeFolder hpath hdots _).2
      (.inl (h.folder_of_file other bytes hfile front hprefix hlt))

theorem write (h : fs.Flat root base depth) (hpath : Names root names path)
    (hdepth : names.length = depth) (bytes : List UInt8) :
    (fs.write path bytes).Flat root base depth := by
  have hfolders := h.leads.hasFolder_write hpath.goesOn hpath.no_dots (h.ne_nil hdepth) bytes
  have hcontent := h.leads.content?_write hpath.goesOn hpath.no_dots bytes
  refine ⟨h.leads.write path bytes, ?_, ?_, ?_⟩
  · intro other hfolder
    rcases (hfolders _).1 hfolder with hold | ⟨front, hfront, heq⟩
    · exact h.folder_lt other hold
    · have hle := hfront.length_le
      have hpos := h.depth_pos
      rw [List.length_dropLast] at hle
      rw [List.append_cancel_left heq]
      omega
  · intro other held hfile
    rw [hcontent] at hfile
    by_cases heq : base ++ names = base ++ other
    · rw [← List.append_cancel_left heq]
      exact hdepth
    · rw [if_neg heq] at hfile
      exact h.file_eq other held hfile
  · intro other held hfile front hprefix hlt
    rw [hcontent] at hfile
    by_cases heq : base ++ names = base ++ other
    · have hother : other = names := (List.append_cancel_left heq).symm
      subst hother
      have hle : front.length ≤ other.dropLast.length := by
        rw [List.length_dropLast]
        omega
      exact (hfolders _).2 (.inr ⟨front,
        List.prefix_of_prefix_length_le hprefix (List.dropLast_prefix _) hle, rfl⟩)
    · rw [if_neg heq] at hfile
      exact (hfolders _).2 (.inl (h.folder_of_file other held hfile front hprefix hlt))

theorem remove (h : fs.Flat root base depth) (hpath : Names root names path)
    (hdepth : names.length = depth) : (fs.remove path).Flat root base depth := by
  obtain ⟨hworking, hfolders⟩ := h.folders_remove hpath hdepth
  have hheld : ∀ place bytes, (fs.remove path).content? place = some bytes →
      fs.content? place = some bytes := by
    intro place bytes hfile
    rw [h.content?_remove hpath hdepth] at hfile
    by_cases heq : base ++ names = place
    · rw [if_pos heq] at hfile
      cases hfile
    · rw [if_neg heq] at hfile
      exact hfile
  refine ⟨h.leads.of_hasFolder hworking fun folder hfolder => (hfolders folder).trans hfolder,
    ?_, ?_, ?_⟩
  · intro other hfolder
    rw [hfolders] at hfolder
    exact h.folder_lt other hfolder
  · intro other bytes hfile
    exact h.file_eq other bytes (hheld _ bytes hfile)
  · intro other bytes hfile front hprefix hlt
    rw [hfolders]
    exact h.folder_of_file other bytes (hheld _ bytes hfile) front hprefix hlt

end Flat

end Files

end PluginDiscovery
