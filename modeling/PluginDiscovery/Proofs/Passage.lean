import PluginDiscovery.Files

/-!
# Following paths

A path is followed one segment at a time. As long as the segments lead to folders that are there,
what they do is told by a relation (`Files.Passage`): it goes through the places that the components
of the path lead to, it does not depend on where the path stays, and what comes after it is followed
from the folder that it leads to. A path can be gone on from by names (`Path.GoesOn`), and it makes
no difference to a path that ends in a name where it stays (`Files.follow_components`).
-/

namespace PluginDiscovery

namespace Path

/-- A name that is one component by itself. -/
structure IsName (name : String) : Prop where
  /-- There is something between the slashes. -/
  ne_empty : name ≠ ""
  /-- It does not stay in place. -/
  ne_dot : name ≠ "."
  /-- It does not go up. -/
  ne_dots : name ≠ ".."
  /-- It ends where it is taken to end. -/
  no_slash : '/' ∉ name.toList

theorem IsName.segments_eq {name : String} (h : IsName name) : segments name = [name] := by
  unfold segments
  rw [List.splitOn_eq_singleton h.no_slash, List.map_singleton, String.ofList_toList]

theorem IsName.components_eq {name : String} (h : IsName name) : components name = [name] := by
  unfold components
  rw [h.segments_eq]
  simp [h.ne_empty, h.ne_dot]

theorem IsName.isAbsolute_eq {name : String} (h : IsName name) : isAbsolute name = false := by
  unfold isAbsolute
  rw [decide_eq_false_iff_not]
  intro hhead
  exact h.no_slash (List.mem_of_mem_head? hhead)

theorem IsName.not_stays {name : String} (h : IsName name) : ¬(name = "" ∨ name = ".") := by
  rintro (hempty | hdot)
  · exact h.ne_empty hempty
  · exact h.ne_dot hdot

/-- The segments that are components. -/
def named (segments : List String) : List String :=
  segments.filter fun segment => segment ≠ "" && segment ≠ "."

theorem named_cons_of_stays {segment : String} (h : segment = "" ∨ segment = ".")
    (rest : List String) : named (segment :: rest) = named rest := by
  rcases h with rfl | rfl <;> rfl

theorem named_cons_of_not_stays {segment : String} (h : ¬(segment = "" ∨ segment = "."))
    (rest : List String) : named (segment :: rest) = segment :: named rest := by
  rw [not_or] at h
  simp [named, h.1, h.2]

/-- A path whose last segment is a component. -/
def EndsInName (path : String) : Prop :=
  ∃ front leaf, segments path = front ++ [leaf] ∧ ¬(leaf = "" ∨ leaf = ".")

theorem EndsInName.join {path : String} (h : EndsInName path) (hpath : isAbsolute path = false)
    (base : String) : EndsInName (join base path) := by
  obtain ⟨front, leaf, hsegments, hleaf⟩ := h
  obtain ⟨before, hbefore⟩ := suffix_segments_join hpath base
  refine ⟨before ++ front, leaf, ?_, hleaf⟩
  rw [← hbefore, hsegments, List.append_assoc]

theorem EndsInName.isEmpty_eq {path : String} (h : EndsInName path) : path.isEmpty = false := by
  obtain ⟨front, leaf, hsegments, hleaf⟩ := h
  rw [← Bool.not_eq_true, String.isEmpty_iff]
  rintro rfl
  have hone : [] ++ [""] = front ++ [leaf] := hsegments
  obtain ⟨-, hlast⟩ := List.append_inj' hone rfl
  exact hleaf (.inl (List.singleton_inj.1 hlast).symm)

/-- A path starts where another one does, and goes on from it by names. -/
structure GoesOn (root : String) (names : List String) (path : String) : Prop where
  /-- Both paths start at the root of the file system, or both at the working folder. -/
  absolute_eq : isAbsolute path = isAbsolute root
  /-- The names come after the components of the other path. -/
  components_eq : components path = components root ++ names

theorem goesOn_join {path : String} (hpath : isAbsolute path = false) (root : String) :
    GoesOn root (components path) (join root path) :=
  ⟨isAbsolute_join hpath root, components_join hpath⟩

theorem GoesOn.join {root base path : String} {names : List String} (h : GoesOn root names base)
    (hpath : isAbsolute path = false) :
    GoesOn root (names ++ components path) (Path.join base path) := by
  constructor
  · rw [isAbsolute_join hpath, h.absolute_eq]
  · rw [components_join hpath, h.components_eq, List.append_assoc]

/-- Paths that go on from the same root are the same if they do so by the same names. -/
theorem GoesOn.same_iff {root path other : String} {names names' : List String}
    (h : GoesOn root names path) (hother : GoesOn root names' other) :
    same path other = true ↔ names = names' := by
  unfold same
  rw [h.absolute_eq, hother.absolute_eq, h.components_eq, hother.components_eq]
  simp

end Path

namespace Files

variable {fs : Files} {path root : String} {place names : List String}

/-! ## Where a path leads -/

theorem step_of_ne {name : String} (h : name ≠ "..") : step place name = place ++ [name] := if_neg h

/-- A component leads from a place to a folder: it goes up, or it names a folder that is there. -/
def Enters (fs : Files) (place : List String) (name : String) : Prop :=
  name = ".." ∨ name.utf8ByteSize ≤ nameLimit ∧ fs.hasFolder (place ++ [name]) = true

/-- Segments lead from a place through folders that are there to the last of them. -/
inductive Passage (fs : Files) : List String → List String → List String → Prop
  /-- No segment is left. -/
  | here (place : List String) : Passage fs place [] place
  /-- A segment stays in place. -/
  | stays {place rest reached : List String} {segment : String} :
      segment = "" ∨ segment = "." → Passage fs place rest reached →
        Passage fs place (segment :: rest) reached
  /-- A segment leads to the next folder. -/
  | enters {place rest reached : List String} {name : String} :
      ¬(name = "" ∨ name = ".") → fs.Enters place name →
        Passage fs (step place name) rest reached → Passage fs place (name :: rest) reached

theorem follow_cons_of_stays {segment : String} (h : segment = "" ∨ segment = ".")
    (rest : List String) : fs.follow place (segment :: rest) = fs.follow place rest := by
  have htest : (segment = "" || segment = ".") = true := by simpa using h
  rw [follow, if_pos htest]

theorem follow_cons_of_enters {name : String} (hname : ¬(name = "" ∨ name = "."))
    (h : fs.Enters place name) (rest : List String) :
    fs.follow place (name :: rest) = fs.follow (step place name) rest := by
  have htest : ¬(name = "" || name = ".") = true := by simpa using hname
  rw [follow, if_neg htest, step]
  by_cases hup : name = ".."
  · rw [if_pos hup, if_pos hup]
  · obtain ⟨hshort, hfolder⟩ := h.resolve_left hup
    rw [if_neg hup, if_neg hup, if_neg (Nat.not_lt.2 hshort)]
    simp only [hfolder, if_true]

/-- Where no folder is entered, a path ends, at a file if it ends there anyway. -/
theorem follow_cons_of_not_enters {name : String} (hname : ¬(name = "" ∨ name = "."))
    (h : ¬fs.Enters place name) (rest : List String) :
    (∀ target, fs.follow place (name :: rest) ≠ .folder target) ∧
      ∀ file bytes, fs.follow place (name :: rest) = .file file bytes →
        rest = [] ∧ step place name = file := by
  have htest : ¬(name = "" || name = ".") = true := by simpa using hname
  unfold Enters at h
  rw [not_or, not_and, Bool.not_eq_true] at h
  obtain ⟨hup, hfolder⟩ := h
  rw [follow, if_neg htest, if_neg hup, step, if_neg hup]
  by_cases hlong : nameLimit < name.utf8ByteSize
  · rw [if_pos hlong]
    simp
  · rw [if_neg hlong]
    simp only [hfolder (Nat.not_lt.1 hlong), Bool.false_eq_true, if_false]
    cases fs.content? (place ++ [name]) with
    | none => simp
    | some bytes => cases rest <;> simp

theorem follow_eq_folder_iff {segments reached : List String} :
    fs.follow place segments = .folder reached ↔ fs.Passage place segments reached := by
  constructor
  · intro h
    induction segments generalizing place with
    | nil =>
      cases h
      exact .here _
    | cons segment rest ih =>
      by_cases hstays : segment = "" ∨ segment = "."
      · rw [follow_cons_of_stays hstays] at h
        exact .stays hstays (ih h)
      · by_cases henters : fs.Enters place segment
        · rw [follow_cons_of_enters hstays henters] at h
          exact .enters hstays henters (ih h)
        · exact absurd h ((follow_cons_of_not_enters hstays henters rest).1 reached)
  · intro h
    induction h with
    | here => rfl
    | stays hstays _ ih => rw [follow_cons_of_stays hstays, ih]
    | enters hname henters _ ih => rw [follow_cons_of_enters hname henters, ih]

namespace Passage

variable {segments reached : List String}

/-- A passage goes through the places that its components lead to. -/
theorem foldl_step (h : fs.Passage place segments reached) :
    (Path.named segments).foldl step place = reached := by
  induction h with
  | here => rfl
  | stays hstays _ ih => rw [Path.named_cons_of_stays hstays, ih]
  | enters hname _ _ ih => rw [Path.named_cons_of_not_stays hname, List.foldl_cons, ih]

/-- It makes no difference where a passage stays. -/
theorem named (h : fs.Passage place segments reached) :
    fs.Passage place (Path.named segments) reached := by
  induction h with
  | here place => exact .here place
  | stays hstays _ ih =>
    rw [Path.named_cons_of_stays hstays]
    exact ih
  | enters hname henters _ ih =>
    rw [Path.named_cons_of_not_stays hname]
    exact .enters hname henters ih

/-- What comes after a passage is followed from the folder that it leads to. -/
theorem follow_append (h : fs.Passage place segments reached) (rest : List String) :
    fs.follow place (segments ++ rest) = fs.follow reached rest := by
  induction h with
  | here => rfl
  | stays hstays _ ih => rw [List.cons_append, follow_cons_of_stays hstays, ih]
  | enters hname henters _ ih => rw [List.cons_append, follow_cons_of_enters hname henters, ih]

/-- Where more folders can be entered, a passage stays one. -/
theorem of_enters {fs' : Files}
    (hmore : ∀ place name, fs.Enters place name → fs'.Enters place name)
    (h : fs.Passage place segments reached) : fs'.Passage place segments reached := by
  induction h with
  | here place => exact .here place
  | stays hstays _ ih => exact .stays hstays ih
  | enters hname henters _ ih => exact .enters hname (hmore _ _ henters) ih

/-- All folders are there that a passage goes through, and those that the last one is in. -/
theorem hasFolder (h : fs.Passage place segments reached)
    (hplace : ∀ front, front <+: place → fs.hasFolder front = true) :
    (∀ folder ∈ trail place (Path.named segments), fs.hasFolder folder = true) ∧
      ∀ front, front <+: reached → fs.hasFolder front = true := by
  induction h with
  | here => exact ⟨List.forall_mem_nil _, hplace⟩
  | stays hstays _ ih =>
    rw [Path.named_cons_of_stays hstays]
    exact ih hplace
  | @enters place rest reached name hname henters _ ih =>
    have hstep : ∀ front, front <+: step place name → fs.hasFolder front = true := by
      intro front hfront
      unfold step at hfront
      split at hfront
      · exact hplace front (hfront.trans (List.dropLast_prefix place))
      · next hup =>
        rcases List.prefix_concat_iff.1 hfront with rfl | hfront
        · exact (henters.resolve_left hup).2
        · exact hplace front hfront
    obtain ⟨htrail, hreached⟩ := ih hstep
    refine ⟨?_, hreached⟩
    rw [Path.named_cons_of_not_stays hname, trail, List.forall_mem_cons]
    exact ⟨hstep _ (List.prefix_refl _), htrail⟩

end Passage

/-- Without a step up the components of a path come after the place. -/
theorem foldl_step (h : ".." ∉ names) (base : List String) :
    names.foldl step base = base ++ names := by
  induction names generalizing base with
  | nil => rw [List.foldl_nil, List.append_nil]
  | cons name names ih =>
    rw [List.mem_cons, not_or] at h
    rw [List.foldl_cons, step_of_ne (Ne.symm h.1), ih h.2, List.append_assoc]
    rfl

/-- On the way to a name it makes no difference where a path stays. -/
theorem follow_named (place : List String) (front : List String) {leaf : String}
    (hleaf : ¬(leaf = "" ∨ leaf = ".")) :
    fs.follow place (Path.named (front ++ [leaf])) = fs.follow place (front ++ [leaf]) := by
  induction front generalizing place with
  | nil => rw [List.nil_append, Path.named_cons_of_not_stays hleaf]; rfl
  | cons segment front ih =>
    rw [List.cons_append]
    by_cases hstays : segment = "" ∨ segment = "."
    · rw [Path.named_cons_of_stays hstays, ih, follow_cons_of_stays hstays]
    · have hnamed : (Path.named (front ++ [leaf])).isEmpty = false := by
        rw [not_or] at hleaf
        simp [Path.named, hleaf.1, hleaf.2]
      have hrest : (front ++ [leaf]).isEmpty = false := by simp
      rw [Path.named_cons_of_not_stays hstays, follow.eq_def, follow.eq_def fs place (segment :: _)]
      simp only [ih, hnamed, hrest]

theorem follow_components (h : Path.EndsInName path) (place : List String) :
    fs.follow place (Path.components path) = fs.follow place (Path.segments path) := by
  obtain ⟨front, leaf, hsegments, hleaf⟩ := h
  have hnamed : Path.components path = Path.named (Path.segments path) := rfl
  rw [hnamed, hsegments]
  exact follow_named place front hleaf

theorem start_eq_of_goesOn (h : Path.GoesOn root names path) : fs.start path = fs.start root := by
  unfold start
  rw [h.absolute_eq]

/-! ## Paths that can be opened -/

/-- A path that the file system takes as it is spelt. -/
def Accepts (path : String) : Prop := '\x00' ∉ path.toList ∧ path.utf8ByteSize < pathLimit

theorem Accepts.contains_eq (h : Accepts path) : path.contains '\x00' = false := by
  rw [String.contains_char_eq, decide_eq_false_iff_not]
  exact h.1

end Files

end PluginDiscovery
