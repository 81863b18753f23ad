/-!
# Paths

A path is a text whose components are separated by slashes. Joining a path to a base puts exactly
one slash between them; a path that starts with a slash stands for itself.
-/

namespace PluginDiscovery.Path

/-- Whether a path starts at the root of the file system. -/
def isAbsolute (path : String) : Bool := path.toList.head? = some '/'

/-- A path as seen from a base. -/
def join (base path : String) : String :=
  if isAbsolute path || base.isEmpty then path
  else if base.toList.getLast? = some '/' then base ++ path
  else base ++ "/" ++ path

/-- The texts between the slashes of a path, empty ones included. -/
def segments (path : String) : List String := (path.toList.splitOn '/').map String.ofList

/-- The components of a path: its segments without the empty ones and those that stay in place. -/
def components (path : String) : List String :=
  (segments path).filter fun segment => segment ≠ "" && segment ≠ "."

/-- Whether two paths have the same components and start at the same place. -/
def same (a b : String) : Bool := isAbsolute a = isAbsolute b && components a = components b

theorem segments_append (base path : String) :
    segments (base ++ "/" ++ path) = segments base ++ segments path := by
  unfold segments
  rw [String.toList_append, String.toList_append, List.append_assoc, ← List.map_append]
  exact congrArg (List.map String.ofList) (List.splitOn_append_cons_self _ _)

theorem isAbsolute_append {base : String} (h : base ≠ "") (path : String) :
    isAbsolute (base ++ path) = isAbsolute base := by
  unfold isAbsolute
  rw [String.toList_append]
  cases hlist : base.toList with
  | nil => exact absurd (String.toList_eq_nil_iff.1 hlist) h
  | cons c rest => rfl

theorem join_empty (path : String) : join "" path = path := by
  simp [join]

theorem components_append (base path : String) :
    components (base ++ "/" ++ path) = components base ++ components path := by
  unfold components
  rw [segments_append, List.filter_append]

/-- A base that is not empty ends in a slash, or is given one. -/
theorem join_eq {base path : String} (hpath : isAbsolute path = false) (hbase : base ≠ "") :
    ∃ front, join base path = front ++ "/" ++ path ∧ (base = front ++ "/" ∨ base = front) := by
  unfold join
  have hempty : base.isEmpty = false := by simpa using hbase
  rw [hpath, hempty]
  by_cases hslash : base.toList.getLast? = some '/'
  · obtain ⟨front, hfront⟩ := List.getLast?_eq_some_iff.1 hslash
    have hbase' : base = String.ofList front ++ "/" := by
      rw [← String.toList_inj, hfront, String.toList_append, String.toList_ofList]
      rfl
    refine ⟨String.ofList front, ?_, .inl hbase'⟩
    simp only [Bool.or_false, Bool.false_eq_true, if_false, if_pos hslash]
    rw [← hbase']
  · refine ⟨base, ?_, .inr rfl⟩
    simp only [Bool.or_false, Bool.false_eq_true, if_false, if_neg hslash]

/-- The components of a path come after those of its base. -/
theorem components_join {base path : String} (hpath : isAbsolute path = false) :
    components (join base path) = components base ++ components path := by
  by_cases hbase : base = ""
  · rw [hbase, join_empty]
    have hnone : components "" = [] := by decide
    rw [hnone, List.nil_append]
  · obtain ⟨front, hjoin, hfront⟩ := join_eq hpath hbase
    have hsame : components base = components front := by
      rcases hfront with rfl | rfl
      · have hnone : components "" = [] := by decide
        have happend := components_append front ""
        rw [String.append_empty, hnone, List.append_nil] at happend
        exact happend
      · rfl
    rw [hjoin, components_append, hsame]

/-- A path ends as it did before it was joined to a base. -/
theorem suffix_segments_join {path : String} (hpath : isAbsolute path = false) (base : String) :
    segments path <:+ segments (join base path) := by
  by_cases hbase : base = ""
  · exact ⟨[], by rw [hbase, join_empty, List.nil_append]⟩
  · obtain ⟨front, hjoin, -⟩ := join_eq hpath hbase
    rw [hjoin, segments_append]
    exact List.suffix_append _ _

/-- A path that is joined to a base starts where the base does. -/
theorem isAbsolute_join {path : String} (hpath : isAbsolute path = false) (base : String) :
    isAbsolute (join base path) = isAbsolute base := by
  by_cases hbase : base = ""
  · rw [hbase, join_empty, hpath]
    rfl
  · obtain ⟨front, hjoin, rfl | rfl⟩ := join_eq hpath hbase
    · rw [hjoin]
      exact isAbsolute_append hbase path
    · rw [hjoin, String.append_assoc]
      exact isAbsolute_append hbase ("/" ++ path)

end PluginDiscovery.Path
