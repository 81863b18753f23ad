import Mathlib.Data.List.TakeWhile
import PluginDiscovery.Config.Validation
import PluginDiscovery.Proofs.Merging

/-!
# What validation finds

`Problem.Holds` says of each problem on its own whether a configuration has it, and `Problem.place`
says when validation looks for it. The problems that validation finds are those that hold, each once
and in the order of their places (`validate_collects`).
-/

namespace PluginDiscovery.Config

/-! ## Blank texts and absolute paths -/

/-- Nothing but blanks is in a text. -/
def Blank (text : String) : Prop := ∀ c ∈ text.toList, Text.isBlank c = true

theorem isBlankText_iff {text : String} : isBlankText text = true ↔ Blank text := by
  have htrim : isBlankText text = true ↔ Text.trimEnd (Text.trimStart text.toList) = [] := by
    rw [isBlankText, Text.trim, String.isEmpty_iff, String.ofList_eq_empty_iff]
  rw [htrim]
  constructor
  · intro hempty c hc
    obtain ⟨first, last, htext, hfirst, hlast⟩ := Text.exists_append_trim text.toList
    rw [hempty, List.append_nil] at htext
    rw [htext] at hc
    rcases List.mem_append.1 hc with hc | hc
    · exact hfirst c hc
    · exact hlast c hc
  · intro hblank
    have hstart : Text.trimStart text.toList = [] := List.dropWhile_eq_nil_iff.2 hblank
    rw [hstart]
    rfl

/-- A path starts with a slash. -/
def AtRoot (path : String) : Prop := ∃ rest, path.toList = '/' :: rest

theorem isAbsolute_iff {path : String} : Path.isAbsolute path = true ↔ AtRoot path := by
  rw [Path.isAbsolute, decide_eq_true_iff, List.head?_eq_some_iff]
  rfl

/-! ## Problems -/

namespace Key

/-- A key together with the table that it is in. -/
def dotted (key : Key) : String := s!"{key.table}.{key.word}"

/-- A key under which a manifest path stands. -/
def OfManifest (key : Key) : Prop := key = interfaceManifest ∨ key = implementationManifest

/-- The place of what stands under a key among all that is validated. -/
def place : Key → Nat
  | interfaceManifest => 0
  | implementationManifest => 1
  | standardNamespace => 3
  | searchPath => 4
  | filter => 5

theorem place_injective {key other : Key} (h : key.place = other.place) : key = other := by
  cases key <;> cases other <;> first | rfl | exact absurd h (by decide)

end Key

/-- What is wrong with a configuration. -/
inductive Problem where
  /-- The text under a key is blank. -/
  | blank (key : Key)
  /-- The manifest path under a key is absolute. -/
  | absolute (key : Key) (path : String)
  /-- The manifest paths are the same, blanks at their ends apart. -/
  | overlap (path : String)
  /-- A root of the search path is empty. -/
  | emptyRoot (index : Nat)
deriving DecidableEq, Repr

namespace Problem

/-- A configuration has a problem. -/
def Holds (config : Config) : Problem → Prop
  | blank key => ∃ text, get config key = .text text ∧ Blank text
  | absolute key path =>
    key.OfManifest ∧ get config key = .text path ∧ ¬Blank path ∧ AtRoot path
  | overlap path =>
    path = config.discovery.interfaceManifest ∧ ¬Blank path ∧
      Text.trim path = Text.trim config.discovery.implementationManifest
  | emptyRoot index => config.discovery.searchPath[index]? = some ""

/-- A problem as a sentence. -/
def words : Problem → String
  | blank key => s!"{key.dotted} must not be empty"
  | absolute key path => s!"{key.dotted} must be relative to the search path roots, got `{path}`"
  | overlap path =>
    "discovery.interface_manifest and discovery.implementation_manifest must differ, "
      ++ s!"both are `{path}`"
  | emptyRoot _ => "discovery.search_path entries must not be empty"

/-- The place of a problem. The manifest paths are compared once both have been looked at. -/
def place : Problem → Nat
  | blank key => key.place
  | absolute key _ => key.place
  | overlap _ => 2
  | emptyRoot _ => Key.searchPath.place

/-- A problem comes before another. Several problems in one place are about roots and come in the
order of these. -/
def Before (problem other : Problem) : Prop :=
  problem.place < other.place ∨
    ∃ i j, problem = emptyRoot i ∧ other = emptyRoot j ∧ i < j

theorem place_lt (problem : Problem) : problem.place < 6 := by
  have hkey : ∀ key : Key, key.place < 6 := by
    intro key
    cases key <;> decide
  cases problem with
  | blank key => exact hkey key
  | absolute key path => exact hkey key
  | overlap path =>
    have hplace : (2 : Nat) < 6 := by decide
    exact hplace
  | emptyRoot index => exact hkey .searchPath

/-! ## What is found in one place -/

/-- The problem that a text is blank. -/
def ofText (key : Key) (text : String) : List Problem :=
  if isBlankText text then [blank key] else []

/-- What is wrong with the path of one manifest. -/
def ofManifest (key : Key) (path : String) : List Problem :=
  if isBlankText path then [blank key]
  else if Path.isAbsolute path then [absolute key path]
  else []

/-- The problem that the manifest paths are the same. -/
def ofOverlap (d : Discovery) : List Problem :=
  if !isBlankText d.interfaceManifest
      && Text.trim d.interfaceManifest = Text.trim d.implementationManifest then
    [overlap d.interfaceManifest]
  else []

/-- The problems that roots are empty. -/
def ofRoots (roots : List String) : List Problem :=
  (roots.zipIdx.filter (·.1.isEmpty)).map fun root => emptyRoot root.2

/-- The problems that are found in one place. -/
def foundAt (config : Config) : Nat → List Problem
  | 0 => ofManifest .interfaceManifest config.discovery.interfaceManifest
  | 1 => ofManifest .implementationManifest config.discovery.implementationManifest
  | 2 => ofOverlap config.discovery
  | 3 => ofText .standardNamespace config.discovery.standardNamespace
  | 4 => ofRoots config.discovery.searchPath
  | 5 => ofText .filter config.logging.filter
  | _ => []

variable {config : Config} {problem : Problem}

section Membership

variable {key : Key} {text : String}

/-- In the place of a text, problems are about this text. -/
theorem of_place_eq (h : get config key = .text text) (hplace : problem.place = key.place) :
    problem = blank key ∨ ∃ path, problem = absolute key path := by
  cases problem with
  | blank other =>
    left
    rw [Key.place_injective hplace]
  | absolute other path =>
    right
    rw [Key.place_injective hplace]
    exact ⟨path, rfl⟩
  | overlap path => cases key <;> cases hplace
  | emptyRoot index =>
    have hroots : Key.searchPath.place = key.place := hplace
    obtain rfl := Key.place_injective hroots
    cases h

theorem holds_blank_iff (h : get config key = .text text) :
    (blank key).Holds config ↔ Blank text := by
  constructor
  · rintro ⟨other, hother, hblank⟩
    rw [h] at hother
    cases hother
    exact hblank
  · intro hblank
    exact ⟨text, h, hblank⟩

theorem mem_ofText_iff (hkey : ¬key.OfManifest) (h : get config key = .text text) :
    problem ∈ ofText key text ↔ problem.Holds config ∧ problem.place = key.place := by
  unfold ofText
  constructor
  · intro hmem
    split at hmem
    · next hblank =>
      rw [List.mem_singleton.1 hmem]
      exact ⟨(holds_blank_iff h).2 (isBlankText_iff.1 hblank), rfl⟩
    · cases hmem
  · rintro ⟨hholds, hplace⟩
    rcases of_place_eq h hplace with rfl | ⟨path, rfl⟩
    · rw [if_pos (isBlankText_iff.2 ((holds_blank_iff h).1 hholds))]
      exact List.mem_singleton_self _
    · exact absurd hholds.1 hkey

theorem mem_ofManifest_iff (hkey : key.OfManifest) (h : get config key = .text text) :
    problem ∈ ofManifest key text ↔ problem.Holds config ∧ problem.place = key.place := by
  unfold ofManifest
  constructor
  · intro hmem
    split at hmem
    · next hblank =>
      rw [List.mem_singleton.1 hmem]
      exact ⟨(holds_blank_iff h).2 (isBlankText_iff.1 hblank), rfl⟩
    · next hblank =>
      split at hmem
      · next habsolute =>
        rw [List.mem_singleton.1 hmem]
        have hfilled : ¬Blank text := fun hall => hblank (isBlankText_iff.2 hall)
        exact ⟨⟨hkey, h, hfilled, isAbsolute_iff.1 habsolute⟩, rfl⟩
      · cases hmem
  · rintro ⟨hholds, hplace⟩
    rcases of_place_eq h hplace with rfl | ⟨path, rfl⟩
    · rw [if_pos (isBlankText_iff.2 ((holds_blank_iff h).1 hholds))]
      exact List.mem_singleton_self _
    · obtain ⟨-, hpath, hfilled, hroot⟩ := hholds
      rw [h] at hpath
      cases hpath
      have hblank : ¬isBlankText text = true := fun hall => hfilled (isBlankText_iff.1 hall)
      rw [if_neg hblank, if_pos (isAbsolute_iff.2 hroot)]
      exact List.mem_singleton_self _

end Membership

theorem mem_ofOverlap_iff :
    problem ∈ ofOverlap config.discovery ↔ problem.Holds config ∧ problem.place = 2 := by
  have hcondition : (!isBlankText config.discovery.interfaceManifest
      && Text.trim config.discovery.interfaceManifest =
        Text.trim config.discovery.implementationManifest) = true ↔
      (overlap config.discovery.interfaceManifest).Holds config := by
    rw [Bool.and_eq_true, Bool.not_eq_true', decide_eq_true_iff, ← Bool.not_eq_true,
      isBlankText_iff]
    constructor
    · intro h
      exact ⟨rfl, h⟩
    · intro h
      exact h.2
  unfold ofOverlap
  constructor
  · intro hmem
    split at hmem
    · next h =>
      rw [List.mem_singleton.1 hmem]
      exact ⟨hcondition.1 h, rfl⟩
    · cases hmem
  · rintro ⟨hholds, hplace⟩
    cases problem with
    | overlap path =>
      obtain rfl := hholds.1
      rw [if_pos (hcondition.2 hholds)]
      exact List.mem_singleton_self _
    | blank key => cases key <;> cases hplace
    | absolute key path => cases key <;> cases hplace
    | emptyRoot index => cases hplace

theorem mem_ofRoots_iff :
    problem ∈ ofRoots config.discovery.searchPath ↔
      problem.Holds config ∧ problem.place = Key.searchPath.place := by
  unfold ofRoots
  rw [List.mem_map]
  constructor
  · rintro ⟨⟨root, index⟩, hroot, rfl⟩
    obtain ⟨hmem, hempty⟩ := List.mem_filter.1 hroot
    have hget := List.mem_zipIdx_iff_getElem?.1 hmem
    rw [String.isEmpty_iff.1 hempty] at hget
    exact ⟨hget, rfl⟩
  · rintro ⟨hholds, hplace⟩
    cases problem with
    | emptyRoot index =>
      refine ⟨("", index), List.mem_filter.2 ⟨?_, rfl⟩, rfl⟩
      exact List.mem_zipIdx_iff_getElem?.2 hholds
    | blank key =>
      obtain rfl := Key.place_injective hplace
      obtain ⟨text, htext, -⟩ := hholds
      cases htext
    | absolute key path =>
      obtain rfl := Key.place_injective hplace
      cases hholds.2.1
    | overlap path => cases hplace

theorem mem_foundAt_iff (place : Nat) :
    problem ∈ foundAt config place ↔ problem.Holds config ∧ problem.place = place := by
  match place with
  | 0 => exact mem_ofManifest_iff (.inl rfl) rfl
  | 1 => exact mem_ofManifest_iff (.inr rfl) rfl
  | 2 => exact mem_ofOverlap_iff
  | 3 => exact mem_ofText_iff (by rintro (h | h) <;> cases h) rfl
  | 4 => exact mem_ofRoots_iff
  | 5 => exact mem_ofText_iff (by rintro (h | h) <;> cases h) rfl
  | place + 6 =>
    constructor
    · intro h
      cases h
    · rintro ⟨-, hplace⟩
      have hlt := problem.place_lt
      omega

/-! ## All that is found -/

/-- All problems that are found. -/
def found (config : Config) : List Problem := (List.range 6).flatMap (foundAt config)

theorem mem_found_iff : problem ∈ found config ↔ problem.Holds config := by
  rw [found, List.mem_flatMap]
  constructor
  · rintro ⟨place, -, hmem⟩
    exact ((mem_foundAt_iff place).1 hmem).1
  · intro hholds
    have hplace := List.mem_range.2 problem.place_lt
    exact ⟨problem.place, hplace, (mem_foundAt_iff problem.place).2 ⟨hholds, rfl⟩⟩

theorem pairwise_ofRoots (roots : List String) : (ofRoots roots).Pairwise Before := by
  have hindices : roots.zipIdx.Pairwise fun a b => a.2 < b.2 := by
    have hsnd : (roots.zipIdx.map Prod.snd).Pairwise (· < ·) := by
      rw [List.zipIdx_map_snd]
      exact List.pairwise_lt_range' 1
    exact List.pairwise_map.1 hsnd
  rw [ofRoots, List.pairwise_map]
  refine (hindices.filter _).imp ?_
  intro root other hlt
  exact .inr ⟨root.2, other.2, rfl, rfl, hlt⟩

theorem pairwise_foundAt (config : Config) (place : Nat) :
    (foundAt config place).Pairwise Before := by
  have hsingle : ∀ {condition : Prop} [Decidable condition] {problem : Problem},
      (if condition then [problem] else []).Pairwise Before := by
    intro condition _ problem
    split
    · exact List.pairwise_singleton _ _
    · exact .nil
  have hmanifest : ∀ key path, (ofManifest key path).Pairwise Before := by
    intro key path
    unfold ofManifest
    split
    · exact List.pairwise_singleton _ _
    · exact hsingle
  match place with
  | 0 => exact hmanifest _ _
  | 1 => exact hmanifest _ _
  | 2 => exact hsingle
  | 3 => exact hsingle
  | 4 => exact pairwise_ofRoots _
  | 5 => exact hsingle
  | place + 6 => exact .nil

theorem pairwise_found (config : Config) : (found config).Pairwise Before := by
  rw [found, List.pairwise_flatMap]
  refine ⟨fun place _ => pairwise_foundAt config place, List.pairwise_lt_range.imp ?_⟩
  intro place later hlt problem hproblem other hother
  left
  rw [((mem_foundAt_iff place).1 hproblem).2, ((mem_foundAt_iff later).1 hother).2]
  exact hlt

/-- Manifest paths that are absolute can be the same as well. -/
example : found { discovery := { interfaceManifest := "/a ", implementationManifest := "/a" } } =
    [.absolute .interfaceManifest "/a ", .absolute .implementationManifest "/a",
      .overlap "/a "] := by
  decide +kernel

end Problem

/-! ## Validation -/

theorem manifestProblems_eq (key : Key) (path : String) :
    manifestProblems key.dotted path = (Problem.ofManifest key path).map Problem.words := by
  unfold manifestProblems Problem.ofManifest
  split
  · rfl
  · split <;> rfl

theorem blankProblems_eq (key : Key) (text : String) :
    blankProblems key.dotted text = (Problem.ofText key text).map Problem.words := by
  unfold blankProblems Problem.ofText
  split <;> rfl

theorem overlapProblems_eq (d : Discovery) :
    overlapProblems d = (Problem.ofOverlap d).map Problem.words := by
  unfold overlapProblems Problem.ofOverlap
  split <;> rfl

theorem rootProblems_eq (roots : List String) :
    rootProblems roots = (Problem.ofRoots roots).map Problem.words := by
  have hroots : roots.filter (·.isEmpty) = (roots.zipIdx.filter (·.1.isEmpty)).map Prod.fst := by
    have hfst := congrArg (List.filter (·.isEmpty)) (List.zipIdx_map_fst 0 roots)
    exact hfst.symm.trans List.filter_map
  rw [rootProblems, hroots, Problem.ofRoots, List.map_map, List.map_map]
  rfl

theorem problems_eq (config : Config) :
    problems config = (Problem.found config).map Problem.words := by
  have hfound : Problem.found config =
      Problem.foundAt config 0 ++ Problem.foundAt config 1 ++ Problem.foundAt config 2 ++
        Problem.foundAt config 3 ++ Problem.foundAt config 4 ++ Problem.foundAt config 5 := by
    simp only [Problem.found, List.range_succ, List.range_zero, List.flatMap_append,
      List.flatMap_cons, List.flatMap_nil, List.append_nil, List.nil_append]
  rw [hfound]
  simp only [List.map_append, Problem.foundAt, ← manifestProblems_eq, ← blankProblems_eq,
    ← overlapProblems_eq, ← rootProblems_eq]
  rfl

/-- A configuration makes sense. -/
structure Sensible (config : Config) : Prop where
  /-- There is a relative path for extension points. -/
  interfaceManifest : ¬Blank config.discovery.interfaceManifest ∧
    ¬AtRoot config.discovery.interfaceManifest
  /-- There is one for implementations. -/
  implementationManifest : ¬Blank config.discovery.implementationManifest ∧
    ¬AtRoot config.discovery.implementationManifest
  /-- The two are not the same, up to the blanks around them. -/
  differ : Text.trim config.discovery.interfaceManifest ≠
    Text.trim config.discovery.implementationManifest
  /-- The standard namespace has a name. -/
  standardNamespace : ¬Blank config.discovery.standardNamespace
  /-- No folder of the search path is left empty. -/
  searchPath : ∀ root ∈ config.discovery.searchPath, root ≠ ""
  /-- There is a filter. -/
  filter : ¬Blank config.logging.filter

theorem sensible_iff {config : Config} :
    Sensible config ↔ ∀ problem : Problem, ¬problem.Holds config := by
  constructor
  · intro h problem hholds
    cases problem with
    | blank key =>
      obtain ⟨text, htext, hblank⟩ := hholds
      cases key with
      | interfaceManifest => cases htext; exact h.interfaceManifest.1 hblank
      | implementationManifest => cases htext; exact h.implementationManifest.1 hblank
      | searchPath => cases htext
      | standardNamespace => cases htext; exact h.standardNamespace hblank
      | filter => cases htext; exact h.filter hblank
    | absolute key path =>
      obtain ⟨rfl | rfl, hpath, -, hroot⟩ := hholds
      · cases hpath
        exact h.interfaceManifest.2 hroot
      · cases hpath
        exact h.implementationManifest.2 hroot
    | overlap path =>
      obtain ⟨rfl, -, hsame⟩ := hholds
      exact h.differ hsame
    | emptyRoot index => exact h.searchPath "" (List.mem_of_getElem? hholds) rfl
  · intro h
    have hfilled : ∀ key text, get config key = .text text → ¬Blank text := by
      intro key text htext hblank
      exact h (.blank key) ⟨text, htext, hblank⟩
    have hmanifest : ∀ key path, key.OfManifest → get config key = .text path →
        ¬Blank path ∧ ¬AtRoot path := by
      intro key path hkey hpath
      refine ⟨hfilled key path hpath, ?_⟩
      intro hroot
      exact h (.absolute key path) ⟨hkey, hpath, hfilled key path hpath, hroot⟩
    have hinterface := hmanifest .interfaceManifest _ (.inl rfl) rfl
    refine ⟨hinterface, hmanifest .implementationManifest _ (.inr rfl) rfl, ?_,
      hfilled .standardNamespace _ rfl, ?_, hfilled .filter _ rfl⟩
    · intro hsame
      exact h (.overlap _) ⟨rfl, hinterface.1, hsame⟩
    · rintro root hroot rfl
      obtain ⟨index, hindex⟩ := List.mem_iff_getElem?.1 hroot
      exact h (.emptyRoot index) hindex

theorem sensible_of_validate {config : Config} (h : validate config = .ok config) :
    Sensible config := by
  rw [sensible_iff]
  intro problem hholds
  have hmem := List.mem_map_of_mem (f := Problem.words) (Problem.mem_found_iff.2 hholds)
  rw [← problems_eq] at hmem
  have hsome : (problems config).isEmpty = false := by
    rw [List.isEmpty_eq_false_iff]
    exact List.ne_nil_of_mem hmem
  rw [validate, hsome] at h
  cases h

/-- Validation accepts a configuration, as it is, if and only if it makes sense. Otherwise it
reports the problems that the configuration has, all of them, each once, and in the order of their
places. -/
theorem validate_collects (config : Config) :
    (∀ valid, validate config = .ok valid ↔ Sensible config ∧ valid = config) ∧
      ∃ found : List Problem, found.Pairwise Problem.Before ∧
        (∀ problem, problem ∈ found ↔ problem.Holds config) ∧
        validate config = if found = [] then .ok config
          else .error (found.map fun problem => .invalid problem.words) := by
  have hvalidate : validate config = if Problem.found config = [] then .ok config
      else .error ((Problem.found config).map fun problem => .invalid problem.words) := by
    rw [validate, problems_eq, List.isEmpty_map, List.map_map]
    simp only [List.isEmpty_iff]
    rfl
  refine ⟨?_, Problem.found config, Problem.pairwise_found config, fun _ => Problem.mem_found_iff,
    hvalidate⟩
  have hnone : Problem.found config = [] ↔ Sensible config := by
    rw [List.eq_nil_iff_forall_not_mem, sensible_iff]
    exact forall_congr' fun problem => not_congr Problem.mem_found_iff
  intro valid
  rw [hvalidate, ← hnone]
  by_cases hfound : Problem.found config = []
  · rw [if_pos hfound]
    simp only [Except.ok.injEq, hfound, true_and, eq_comm]
  · rw [if_neg hfound]
    simp only [reduceCtorEq, hfound, false_and]

end PluginDiscovery.Config
