import Mathlib.Data.List.Nodup
import Mathlib.Logic.Function.Iterate
import PluginDiscovery.Proofs.Ancestors

/-!
# The search for ancestors, step by step

`Catalog.inherited` is told here as a loop over a state: what has been seen, what waits in the queue
and what was found so far. Each step takes one name off the queue, and only the first visit to a
declared name puts new ones there, as many as that name has parents. So the search ends on every
graph after at most one step for each parent that some type names (`searchBound`), and then it has
found what `Catalog.ancestors` lists.

A search deals with a part of its queue as a whole: it takes up the new names of that part and puts
their parents behind all that waits (`inherited_append`). So a name that is not declared makes no
difference wherever it waits (`inherited_append_undeclared`), and as every name is taken up once, no
interface is listed twice (`nodup_inherited`).
-/

namespace PluginDiscovery.Catalog

variable {c : Catalog} {seen queue : List String} {name : String} {decl : TypeDecl}

/-! ## A part of the queue -/

/-- The names that were not seen before, each where it comes first. -/
def newNames (seen : List String) : List String → List String
  | [] => []
  | name :: names =>
    if name ∈ seen then newNames seen names else name :: newNames (name :: seen) names

/-- The parents of all declared types among some names, one type after the other. -/
def parentsOf (c : Catalog) (names : List String) : List String :=
  names.flatMap fun name => (c.find? name).toList.flatMap (·.parents)

/-- The declared interfaces among some names. -/
def interfacesOf (c : Catalog) (names : List String) : List TypeDecl :=
  (names.filterMap c.find?).filter (·.isInterface)

theorem newNames_cons_of_mem (h : name ∈ seen) (names : List String) :
    newNames seen (name :: names) = newNames seen names := by
  rw [newNames, if_pos h]

theorem newNames_cons_of_not_mem (h : name ∉ seen) (names : List String) :
    newNames seen (name :: names) = name :: newNames (name :: seen) names := by
  rw [newNames, if_neg h]

theorem mem_newNames_iff {names : List String} :
    name ∈ newNames seen names ↔ name ∈ names ∧ name ∉ seen := by
  induction names generalizing seen with
  | nil => simp [newNames]
  | cons first names ih =>
    by_cases hfirst : first ∈ seen
    · rw [newNames_cons_of_mem hfirst, ih, List.mem_cons]
      constructor
      · rintro ⟨hmem, hnew⟩
        exact ⟨.inr hmem, hnew⟩
      · rintro ⟨rfl | hmem, hnew⟩
        · exact absurd hfirst hnew
        · exact ⟨hmem, hnew⟩
    · rw [newNames_cons_of_not_mem hfirst, List.mem_cons, ih, List.mem_cons, List.mem_cons, not_or]
      constructor
      · rintro (rfl | ⟨hmem, -, hnew⟩)
        · exact ⟨.inl rfl, hfirst⟩
        · exact ⟨.inr hmem, hnew⟩
      · rintro ⟨hmem, hnew⟩
        by_cases hname : name = first
        · exact .inl hname
        · exact .inr ⟨hmem.resolve_left hname, hname, hnew⟩

theorem parentsOf_cons_of_none (hfind : c.find? name = none) (names : List String) :
    c.parentsOf (name :: names) = c.parentsOf names := by
  simp [parentsOf, hfind]

theorem parentsOf_cons_of_some (hfind : c.find? name = some decl) (names : List String) :
    c.parentsOf (name :: names) = decl.parents ++ c.parentsOf names := by
  simp [parentsOf, hfind]

theorem interfacesOf_cons_of_none (hfind : c.find? name = none) (names : List String) :
    c.interfacesOf (name :: names) = c.interfacesOf names := by
  simp [interfacesOf, hfind]

theorem interfacesOf_cons_of_some (hfind : c.find? name = some decl) (names : List String) :
    c.interfacesOf (name :: names) =
      (if decl.isInterface then [decl] else []) ++ c.interfacesOf names := by
  by_cases hinterface : decl.isInterface <;> simp [interfacesOf, hfind, hinterface]

/-- A search deals with the names at the front of its queue before it comes to those behind. It
lists the interfaces among the new ones, and then their parents wait at the end of the queue. -/
theorem inherited_append (c : Catalog) (seen names queue : List String) :
    c.inherited seen (names ++ queue) =
      c.interfacesOf (newNames seen names) ++
        c.inherited ((newNames seen names).reverse ++ seen)
          (queue ++ c.parentsOf (newNames seen names)) := by
  induction names generalizing seen queue with
  | nil => simp [newNames, interfacesOf, parentsOf]
  | cons name names ih =>
    rw [List.cons_append]
    by_cases hseen : name ∈ seen
    · rw [inherited_cons_of_mem hseen, newNames_cons_of_mem hseen]
      exact ih seen queue
    · rw [newNames_cons_of_not_mem hseen, List.reverse_cons, List.append_assoc,
        List.singleton_append]
      cases hfind : c.find? name with
      | none =>
        rw [inherited_cons_of_none hseen hfind, ih, interfacesOf_cons_of_none hfind,
          parentsOf_cons_of_none hfind]
      | some decl =>
        rw [inherited_cons_of_some hseen hfind, List.append_assoc, ih,
          interfacesOf_cons_of_some hfind, parentsOf_cons_of_some hfind, List.append_assoc,
          List.append_assoc]

/-! ## Steps -/

/-- How far a search for ancestors has come. -/
structure Search where
  /-- The names that were taken off the queue, and the name of the type itself. -/
  seen : List String
  /-- The names that wait, some of them more than once. -/
  queue : List String
  /-- The interfaces found so far, in order. -/
  found : List TypeDecl

/-- The search for the ancestors of a type before its first step. -/
def Search.start (decl : TypeDecl) : Search := ⟨[decl.name], decl.parents, []⟩

/-- Takes the first name off the queue and deals with it. A search with nothing in its queue is
finished and stays as it is. -/
def searchStep (c : Catalog) (s : Search) : Search :=
  match s.queue with
  | [] => s
  | name :: queue =>
    if name ∈ s.seen then { s with queue }
    else
      match c.find? name with
      | none => { s with seen := name :: s.seen, queue }
      | some decl =>
        { seen := name :: s.seen
          queue := queue ++ decl.parents
          found := s.found ++ if decl.isInterface then [decl] else [] }

variable {s : Search}

theorem searchStep_of_nil (h : s.queue = []) : c.searchStep s = s := by
  rw [searchStep, h]

theorem searchStep_of_mem (h : s.queue = name :: queue) (hseen : name ∈ s.seen) :
    c.searchStep s = { s with queue } := by
  simp only [searchStep, h, if_pos hseen]

theorem searchStep_of_none (h : s.queue = name :: queue) (hseen : name ∉ s.seen)
    (hfind : c.find? name = none) :
    c.searchStep s = { s with seen := name :: s.seen, queue } := by
  simp only [searchStep, h, if_neg hseen, hfind]

theorem searchStep_of_some (h : s.queue = name :: queue) (hseen : name ∉ s.seen)
    (hfind : c.find? name = some decl) :
    c.searchStep s =
      ⟨name :: s.seen, queue ++ decl.parents,
        s.found ++ if decl.isInterface then [decl] else []⟩ := by
  simp only [searchStep, h, if_neg hseen, hfind]

/-- What a search has found together with what it has still to find. -/
def Search.total (c : Catalog) (s : Search) : List TypeDecl := s.found ++ c.inherited s.seen s.queue

/-- A step only moves interfaces from what is still to be found to what is found. -/
theorem total_searchStep (c : Catalog) (s : Search) : (c.searchStep s).total c = s.total c := by
  cases hqueue : s.queue with
  | nil => rw [searchStep_of_nil hqueue]
  | cons name queue =>
    by_cases hseen : name ∈ s.seen
    · rw [searchStep_of_mem hqueue hseen, Search.total, Search.total, hqueue,
        inherited_cons_of_mem hseen]
    · cases hfind : c.find? name with
      | none =>
        rw [searchStep_of_none hqueue hseen hfind, Search.total, Search.total, hqueue,
          inherited_cons_of_none hseen hfind]
      | some decl =>
        rw [searchStep_of_some hqueue hseen hfind, Search.total, Search.total, hqueue,
          inherited_cons_of_some hseen hfind, List.append_assoc]

/-! ## How long a search is -/

/-- The number of parents that all declared types not seen before bring into the queue. -/
def unseenParents (c : Catalog) (seen : List String) : Nat :=
  (c.parentsOf (c.names.filter (· ∉ seen))).length

theorem filter_names_cons (c : Catalog) (seen : List String) (name : String) :
    c.names.filter (· ∉ name :: seen) = (c.names.filter (· ∉ seen)).erase name := by
  have hnodup : (c.names.filter (· ∉ seen)).Nodup := c.types.names_nodup.filter _
  rw [hnodup.erase_eq_filter, List.filter_filter]
  refine List.filter_congr fun other _ => ?_
  by_cases hname : other = name <;> simp [hname]

/-- The first visit to a declared name moves its parents into the queue. -/
theorem unseenParents_cons_of_some (hseen : name ∉ seen) (hfind : c.find? name = some decl) :
    decl.parents.length + c.unseenParents (name :: seen) = c.unseenParents seen := by
  have hmem : name ∈ c.names.filter (· ∉ seen) :=
    List.mem_filter.2 ⟨mem_names_of_find? hfind, decide_eq_true hseen⟩
  have hlength : (c.parentsOf (c.names.filter (· ∉ seen))).length =
      (c.parentsOf (name :: (c.names.filter (· ∉ seen)).erase name)).length :=
    ((List.perm_cons_erase hmem).flatMap_right _).length_eq
  rw [parentsOf_cons_of_some hfind, List.length_append, ← filter_names_cons] at hlength
  exact hlength.symm

theorem unseenParents_cons_of_none (hfind : c.find? name = none) :
    c.unseenParents (name :: seen) = c.unseenParents seen := by
  have hnot : name ∉ c.names.filter (· ∉ seen) := by
    intro hmem
    obtain ⟨decl, hdecl⟩ := c.types.mem_names_iff.1 (List.mem_filter.1 hmem).1
    have hsome : c.find? name = some decl := hdecl
    rw [hfind] at hsome
    cases hsome
  rw [unseenParents, filter_names_cons, List.erase_of_not_mem hnot]
  rfl

/-- The number of steps that a search has still to go: one for each name that waits and one for
each that will come. -/
def Search.stepsLeft (c : Catalog) (s : Search) : Nat := s.queue.length + c.unseenParents s.seen

/-- Every step of a search that is not finished is one of those that were left. -/
theorem stepsLeft_searchStep_lt (h : s.queue ≠ []) :
    (c.searchStep s).stepsLeft c < s.stepsLeft c := by
  obtain ⟨name, queue, hqueue⟩ := List.exists_cons_of_ne_nil h
  have hlength : s.queue.length = queue.length + 1 := by rw [hqueue, List.length_cons]
  by_cases hseen : name ∈ s.seen
  · rw [searchStep_of_mem hqueue hseen]
    simp only [Search.stepsLeft]
    omega
  · cases hfind : c.find? name with
    | none =>
      have hsame : c.unseenParents (name :: s.seen) = c.unseenParents s.seen :=
        unseenParents_cons_of_none hfind
      rw [searchStep_of_none hqueue hseen hfind]
      simp only [Search.stepsLeft]
      omega
    | some decl =>
      have hmoved := unseenParents_cons_of_some hseen hfind
      rw [searchStep_of_some hqueue hseen hfind]
      simp only [Search.stepsLeft, List.length_append]
      omega

/-! ## Whole searches -/

theorem total_iterate (c : Catalog) (n : Nat) (s : Search) :
    (c.searchStep^[n] s).total c = s.total c := by
  induction n generalizing s with
  | zero => rfl
  | succ n ih => rw [Function.iterate_succ_apply, ih, total_searchStep]

theorem queue_iterate {n : Nat} (h : s.stepsLeft c ≤ n) : (c.searchStep^[n] s).queue = [] := by
  induction n generalizing s with
  | zero =>
    have hlength : s.queue.length = 0 := by
      unfold Search.stepsLeft at h
      omega
    exact List.length_eq_zero_iff.1 hlength
  | succ n ih =>
    by_cases hqueue : s.queue = []
    · have hfixed : c.searchStep^[n + 1] s = s :=
        Function.iterate_fixed (searchStep_of_nil hqueue) (n + 1)
      rw [hfixed, hqueue]
    · have hless := stepsLeft_searchStep_lt (c := c) hqueue
      rw [Function.iterate_succ_apply]
      exact ih (by omega)

/-- A bound on the steps of the search for the ancestors of a type: its parents, and those of all
declared types of other names. -/
def searchBound (c : Catalog) (decl : TypeDecl) : Nat :=
  decl.parents.length + c.unseenParents [decl.name]

/-- Once all steps are done nothing waits any more, and what was found are the ancestors. -/
theorem search_finished {n : Nat} (h : c.searchBound decl ≤ n) :
    (c.searchStep^[n] (.start decl)).queue = [] ∧
      (c.searchStep^[n] (.start decl)).found = c.ancestors decl := by
  have hqueue : (c.searchStep^[n] (.start decl)).queue = [] := queue_iterate h
  have htotal := total_iterate c n (.start decl)
  rw [Search.total, hqueue, inherited, List.append_nil] at htotal
  exact ⟨hqueue, htotal⟩

/-! ## No interface twice -/

theorem name_not_mem_of_mem_inherited {other : TypeDecl} (h : other ∈ c.inherited seen queue) :
    other.name ∉ seen := by
  obtain ⟨-, -, hnew, -⟩ := mem_inherited_iff.1 h
  exact hnew

/-- No interface is listed twice, since every name is marked as seen when it is taken up. -/
theorem nodup_inherited (c : Catalog) (seen queue : List String) :
    ((c.inherited seen queue).map (·.name)).Nodup := by
  induction seen, queue using inherited.induct c with
  | case1 seen => simp [inherited]
  | case2 seen name queue hseen ih =>
    rw [inherited_cons_of_mem hseen]
    exact ih
  | case3 seen name queue hseen hfind ih =>
    rw [inherited_cons_of_none hseen hfind]
    exact ih
  | case4 seen name queue hseen decl hfind hinterface ih =>
    rw [inherited_cons_of_some hseen hfind, if_pos hinterface, List.singleton_append, List.map_cons,
      List.nodup_cons]
    refine ⟨fun hmem => ?_, ih⟩
    obtain ⟨other, hother, hsame⟩ := List.mem_map.1 hmem
    have hnew := name_not_mem_of_mem_inherited hother
    rw [hsame, name_of_find? hfind] at hnew
    exact hnew List.mem_cons_self
  | case5 seen name queue hseen decl hfind hinterface ih =>
    rw [inherited_cons_of_some hseen hfind, if_neg hinterface, List.nil_append]
    exact ih

/-! ## Names that are not declared -/

theorem mem_cons_iff_of_undeclared (hnone : c.find? name = none) {other : String}
    (hfind : c.find? other = some decl) : other ∈ name :: seen ↔ other ∈ seen := by
  have hne : other ≠ name := by
    rintro rfl
    rw [hnone] at hfind
    cases hfind
  rw [List.mem_cons, or_iff_right hne]

/-- Whether names that are not declared count as seen makes no difference. -/
theorem inherited_congr_of_declared {seen' : List String}
    (h : ∀ name decl, c.find? name = some decl → (name ∈ seen' ↔ name ∈ seen)) :
    c.inherited seen' queue = c.inherited seen queue := by
  induction seen, queue using inherited.induct c generalizing seen' with
  | case1 seen => rw [inherited, inherited]
  | case2 seen name queue hseen ih =>
    rw [inherited_cons_of_mem hseen]
    by_cases hseen' : name ∈ seen'
    · rw [inherited_cons_of_mem hseen']
      exact ih h
    · have hnone : c.find? name = none := by
        cases hfind : c.find? name with
        | none => rfl
        | some decl => exact absurd ((h name decl hfind).2 hseen) hseen'
      rw [inherited_cons_of_none hseen' hnone]
      refine ih fun other decl hfind => ?_
      rw [mem_cons_iff_of_undeclared hnone hfind]
      exact h other decl hfind
  | case3 seen name queue hseen hnone ih =>
    rw [inherited_cons_of_none hseen hnone]
    by_cases hseen' : name ∈ seen'
    · rw [inherited_cons_of_mem hseen']
      refine ih fun other decl hfind => ?_
      rw [mem_cons_iff_of_undeclared hnone hfind]
      exact h other decl hfind
    · rw [inherited_cons_of_none hseen' hnone]
      refine ih fun other decl hfind => ?_
      rw [List.mem_cons, List.mem_cons, h other decl hfind]
  | case4 seen name queue hseen decl hfind hinterface ih
  | case5 seen name queue hseen decl hfind hinterface ih =>
    have hseen' : name ∉ seen' := fun hmem => hseen ((h name decl hfind).1 hmem)
    rw [inherited_cons_of_some hseen hfind, inherited_cons_of_some hseen' hfind]
    refine congrArg _ (ih fun other next hnext => ?_)
    rw [List.mem_cons, List.mem_cons, h other next hnext]

theorem inherited_cons_of_undeclared (hnone : c.find? name = none) (seen queue : List String) :
    c.inherited seen (name :: queue) = c.inherited seen queue := by
  by_cases hseen : name ∈ seen
  · exact inherited_cons_of_mem hseen
  · rw [inherited_cons_of_none hseen hnone]
    exact inherited_congr_of_declared fun other decl hfind =>
      mem_cons_iff_of_undeclared hnone hfind

/-- A name that is not declared can be left out of the queue wherever it waits. -/
theorem inherited_append_undeclared (hnone : c.find? name = none)
    (seen before after : List String) :
    c.inherited seen (before ++ name :: after) = c.inherited seen (before ++ after) := by
  rw [inherited_append c seen before (name :: after), inherited_append c seen before after,
    List.cons_append, inherited_cons_of_undeclared hnone]

/-! ## What a search finds -/

/-- The search for the ancestors of a type, itself declared or not, ends on every graph, cycles
included, after a number of steps that is bounded by the number of parents of all types. The
interfaces that it finds have distinct names. They are the declared interfaces that the type
inherits from: those of another name to which a path leads from one of its parents along declared
types, none of which has the name of the type. A name that is not declared makes no difference to a
search, wherever it waits in the queue. The extension points are the marked ones of the ancestors,
in the same order. -/
theorem ancestors_by_paths (c : Catalog) (decl : TypeDecl) :
    (∀ n, c.searchBound decl ≤ n →
      (c.searchStep^[n] (.start decl)).queue = [] ∧
        (c.searchStep^[n] (.start decl)).found = c.ancestors decl) ∧
      ((c.ancestors decl).map (·.name)).Nodup ∧
      (∀ other, other ∈ c.ancestors decl ↔
        c.find? other.name = some other ∧ other.isInterface = true ∧ c.Inherits decl other.name) ∧
      (∀ name seen before after, c.find? name = none →
        c.inherited seen (before ++ name :: after) = c.inherited seen (before ++ after)) ∧
      c.extensionPoints decl = (c.ancestors decl).filter (·.isMarked) := by
  refine ⟨fun n hn => search_finished hn, nodup_inherited c [decl.name] decl.parents,
    fun other => mem_ancestors_iff, fun name seen before after hnone => ?_, rfl⟩
  exact inherited_append_undeclared hnone seen before after

end PluginDiscovery.Catalog
