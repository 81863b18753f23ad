import PluginDiscovery.Proofs.Ancestors

/-!
# Which types link

`Catalog.walk` follows a stack of names and stops at the first one that is not declared. A walk that
never stops has visited a set of names that is closed: whatever a visited type links against was
seen before the walk or is visited too (`walk_closed`). A walk that stops does so at a name that can
be reached from the stack (`walk_missing`). Together this says what `Catalog.link` decides: a type
links exactly when it is declared and every name that it reaches through dependencies is declared
(`link_eq_ok_iff`).

No walk visits a name twice, so cycles do not keep it from ending: it makes at most one visit for
each declared name that it has not seen, and one more where it stops (`length_visited_le`).
-/

namespace PluginDiscovery.Catalog

variable {c : Catalog}

/-- A name and everything that it links against, directly or through others, are declared. -/
def Complete (c : Catalog) (name : String) : Prop :=
  ∀ target, Reaches c.DependsOn name target → ∃ decl, c.find? target = some decl

theorem Complete.declared {name : String} (h : c.Complete name) :
    ∃ decl, c.find? name = some decl :=
  h name (.refl name)

/-- Where all dependencies of declared types are declared, every declared name is complete. -/
theorem complete_of_closed
    (h : ∀ source target, c.DependsOn source target → ∃ decl, c.find? target = some decl)
    {name : String} (hname : ∃ decl, c.find? name = some decl) : c.Complete name := by
  intro target hpath
  cases hpath with
  | refl => exact hname
  | tail _ hstep => exact h _ _ hstep

theorem Complete.of_mem_dependencies {name target : String} {decl : TypeDecl}
    (h : c.Complete name) (hfind : c.find? name = some decl)
    (htarget : target ∈ decl.dependencies) : c.Complete target := by
  intro last hpath
  have hstep : c.DependsOn name target := ⟨decl, hfind, htarget⟩
  exact h last (hpath.head hstep)

/-! ## What one step visits -/

theorem walk_cons_of_mem {seen stack : List String} {name : String} (hseen : name ∈ seen) :
    c.walk seen (name :: stack) = c.walk seen stack := by
  rw [walk, dif_pos hseen]

theorem walk_cons_of_none {seen stack : List String} {name : String} (hseen : name ∉ seen)
    (hfind : c.find? name = none) : c.walk seen (name :: stack) = ⟨[name], some name⟩ := by
  rw [walk, dif_neg hseen]
  split
  · rfl
  · next decl hdecl =>
    rw [hfind] at hdecl
    cases hdecl

theorem walk_cons_of_some {seen stack : List String} {name : String} {decl : TypeDecl}
    (hseen : name ∉ seen) (hfind : c.find? name = some decl) :
    c.walk seen (name :: stack) =
      ⟨name :: (c.walk (name :: seen) (decl.dependencies.reverse ++ stack)).visited,
        (c.walk (name :: seen) (decl.dependencies.reverse ++ stack)).missing⟩ := by
  rw [walk, dif_neg hseen]
  split
  · next hnone =>
    rw [hfind] at hnone
    cases hnone
  · next other hother =>
    have hsame : decl = other := Option.some.inj (hfind.symm.trans hother)
    subst hsame
    rfl

/-! ## Whole walks -/

/-- A walk that does not stop visits all names of the stack that were not seen before, and all that
the visited types link against. -/
theorem walk_closed {seen stack : List String} (h : (c.walk seen stack).missing = none) :
    (∀ name ∈ stack, name ∈ seen ∨ name ∈ (c.walk seen stack).visited) ∧
      ∀ name ∈ (c.walk seen stack).visited, ∃ decl, c.find? name = some decl ∧
        ∀ target ∈ decl.dependencies, target ∈ seen ∨ target ∈ (c.walk seen stack).visited := by
  induction seen, stack using walk.induct c with
  | case1 seen => simp [walk]
  | case2 seen name stack hseen ih =>
    rw [walk_cons_of_mem hseen] at h ⊢
    obtain ⟨hstack, hvisited⟩ := ih h
    refine ⟨fun other hother => ?_, hvisited⟩
    rcases List.mem_cons.1 hother with rfl | hother
    · exact .inl hseen
    · exact hstack other hother
  | case3 seen name stack hseen hfind =>
    rw [walk_cons_of_none hseen hfind] at h
    cases h
  | case4 seen name stack hseen decl hfind ih =>
    rw [walk_cons_of_some hseen hfind] at h ⊢
    obtain ⟨hstack, hvisited⟩ := ih h
    -- the name was seen from here on; now it counts as visited
    have hmove : ∀ {other : String} {rest : List String},
        other ∈ name :: seen ∨ other ∈ rest → other ∈ seen ∨ other ∈ name :: rest := by
      intro other rest hother
      rcases hother with hother | hother
      · rcases List.mem_cons.1 hother with rfl | hother
        · exact .inr List.mem_cons_self
        · exact .inl hother
      · exact .inr (List.mem_cons_of_mem _ hother)
    constructor
    · intro other hother
      rcases List.mem_cons.1 hother with rfl | hother
      · exact .inr List.mem_cons_self
      · exact hmove (hstack other (List.mem_append_right _ hother))
    · intro other hother
      rcases List.mem_cons.1 hother with rfl | hother
      · refine ⟨decl, hfind, fun target htarget => ?_⟩
        exact hmove (hstack target (List.mem_append_left _ (List.mem_reverse.2 htarget)))
      · obtain ⟨next, hnext, htargets⟩ := hvisited other hother
        exact ⟨next, hnext, fun target htarget => hmove (htargets target htarget)⟩

/-- A walk stops only at a name that is not declared and can be reached from the stack. -/
theorem walk_missing {seen stack : List String} {missing : String}
    (h : (c.walk seen stack).missing = some missing) :
    c.find? missing = none ∧ ∃ start ∈ stack, Reaches c.DependsOn start missing := by
  induction seen, stack using walk.induct c with
  | case1 seen => simp [walk] at h
  | case2 seen name stack hseen ih =>
    rw [walk_cons_of_mem hseen] at h
    obtain ⟨hnone, start, hstart, hpath⟩ := ih h
    exact ⟨hnone, start, List.mem_cons_of_mem _ hstart, hpath⟩
  | case3 seen name stack hseen hfind =>
    rw [walk_cons_of_none hseen hfind] at h
    have hname : name = missing := Option.some.inj h
    subst hname
    exact ⟨hfind, name, List.mem_cons_self, .refl name⟩
  | case4 seen name stack hseen decl hfind ih =>
    rw [walk_cons_of_some hseen hfind] at h
    obtain ⟨hnone, start, hstart, hpath⟩ := ih h
    refine ⟨hnone, ?_⟩
    rcases List.mem_append.1 hstart with hstart | hstart
    · have hstep : c.DependsOn name start := ⟨decl, hfind, List.mem_reverse.1 hstart⟩
      exact ⟨name, List.mem_cons_self, hpath.head hstep⟩
    · exact ⟨start, List.mem_cons_of_mem _ hstart, hpath⟩

/-- The walk over the dependencies of a type stops nowhere exactly when the type is complete. -/
theorem missing_eq_none_iff {name : String} {decl : TypeDecl} (hfind : c.find? name = some decl) :
    (c.walk [name] decl.dependencies.reverse).missing = none ↔ c.Complete name := by
  constructor
  · intro h target hpath
    obtain ⟨hstack, hvisited⟩ := walk_closed h
    have hreached : target ∈ [name] ∨
        target ∈ (c.walk [name] decl.dependencies.reverse).visited := by
      induction hpath with
      | refl => exact .inl List.mem_cons_self
      | @tail middle last _ hstep ih =>
        obtain ⟨next, hnext, hlast⟩ := hstep
        rcases ih with hmiddle | hmiddle
        · rw [List.mem_singleton.1 hmiddle, hfind] at hnext
          have hsame : decl = next := Option.some.inj hnext
          subst hsame
          exact hstack last (List.mem_reverse.2 hlast)
        · obtain ⟨other, hother, htargets⟩ := hvisited middle hmiddle
          rw [hnext] at hother
          have hsame : next = other := Option.some.inj hother
          subst hsame
          exact htargets last hlast
    rcases hreached with hname | hmem
    · exact ⟨decl, List.mem_singleton.1 hname ▸ hfind⟩
    · obtain ⟨other, hother, -⟩ := hvisited target hmem
      exact ⟨other, hother⟩
  · intro h
    cases hmissing : (c.walk [name] decl.dependencies.reverse).missing with
    | none => rfl
    | some missing =>
      obtain ⟨hnone, start, hstart, hpath⟩ := walk_missing hmissing
      have hstep : c.DependsOn name start := ⟨decl, hfind, List.mem_reverse.1 hstart⟩
      obtain ⟨other, hother⟩ := h missing (hpath.head hstep)
      rw [hnone] at hother
      cases hother

/-- A type links exactly when it is declared under its name and complete. -/
theorem link_eq_ok_iff {name : String} {decl : TypeDecl} :
    c.link name = .ok decl ↔ c.find? name = some decl ∧ c.Complete name := by
  constructor
  · intro h
    have hfind : c.find? name = some decl := find?_of_link h
    refine ⟨hfind, (missing_eq_none_iff hfind).1 ?_⟩
    cases hmissing : (c.walk [name] decl.dependencies.reverse).missing with
    | none => rfl
    | some missing =>
      rw [link_of_missing_eq_some hfind hmissing] at h
      cases h
  · rintro ⟨hfind, hcomplete⟩
    exact link_of_missing_eq_none hfind ((missing_eq_none_iff hfind).2 hcomplete)

/-! ## How long a walk is -/

/-- A walk visits no name twice, and none that was seen before. -/
theorem nodup_visited (c : Catalog) (seen stack : List String) :
    (c.walk seen stack).visited.Nodup ∧ ∀ name ∈ (c.walk seen stack).visited, name ∉ seen := by
  induction seen, stack using walk.induct c with
  | case1 seen => simp [walk]
  | case2 seen name stack hseen ih =>
    rw [walk_cons_of_mem hseen]
    exact ih
  | case3 seen name stack hseen hfind =>
    rw [walk_cons_of_none hseen hfind]
    simpa using hseen
  | case4 seen name stack hseen decl hfind ih =>
    rw [walk_cons_of_some hseen hfind]
    obtain ⟨hnodup, hnew⟩ := ih
    refine ⟨List.nodup_cons.2 ⟨fun hmem => ?_, hnodup⟩, fun other hother => ?_⟩
    · exact hnew name hmem List.mem_cons_self
    · rcases List.mem_cons.1 hother with rfl | hother
      · exact hseen
      · exact fun hmem => hnew other hother (List.mem_cons_of_mem _ hmem)

/-- Every visit but the one at which a walk stops leaves one declared name fewer to see. -/
theorem length_visited_le (c : Catalog) (seen stack : List String) :
    (c.walk seen stack).visited.length ≤ c.unseen seen + 1 := by
  induction seen, stack using walk.induct c with
  | case1 seen => simp [walk]
  | case2 seen name stack hseen ih =>
    rw [walk_cons_of_mem hseen]
    exact ih
  | case3 seen name stack hseen hfind =>
    rw [walk_cons_of_none hseen hfind]
    simp
  | case4 seen name stack hseen decl hfind ih =>
    rw [walk_cons_of_some hseen hfind, List.length_cons]
    have hfewer : c.unseen (name :: seen) < c.unseen seen := unseen_cons_lt hfind hseen
    omega

theorem unseen_nil (c : Catalog) : c.unseen [] = c.size := by
  simp [unseen, names, size, NameMap.names, NameMap.size]

/-- The walk from the dependencies of a declared type makes as many visits as there are declared
types at most. -/
theorem length_visited_le_size {name : String} {decl : TypeDecl} (h : c.find? name = some decl) :
    (c.walk [name] decl.dependencies.reverse).visited.length ≤ c.size := by
  have hvisited := length_visited_le c [name] decl.dependencies.reverse
  have hfewer : c.unseen [name] < c.unseen [] := unseen_cons_lt h List.not_mem_nil
  rw [unseen_nil] at hfewer
  omega

/-! ## The verdict -/

/-- If a declared type reaches a name that is not declared, it does not link, and what is reported
missing is such a name. -/
theorem link_of_reaches_undeclared {name target : String} {decl : TypeDecl}
    (hfind : c.find? name = some decl) (hpath : Reaches c.DependsOn name target)
    (htarget : c.find? target = none) :
    ∃ missing, c.link name = .error (.missingDependency name missing) ∧
      Reaches c.DependsOn name missing ∧ c.find? missing = none := by
  cases hmissing : (c.walk [name] decl.dependencies.reverse).missing with
  | none =>
    obtain ⟨other, hother⟩ := (missing_eq_none_iff hfind).1 hmissing target hpath
    rw [htarget] at hother
    cases hother
  | some missing =>
    obtain ⟨hnone, start, hstart, hrest⟩ := walk_missing hmissing
    have hstep : c.DependsOn name start := ⟨decl, hfind, List.mem_reverse.1 hstart⟩
    exact ⟨missing, link_of_missing_eq_some hfind hmissing, hrest.head hstep, hnone⟩

theorem link_eq_notFound_iff {name : String} :
    c.link name = .error (.notFound name) ↔ c.find? name = none := by
  constructor
  · intro h
    cases hfind : c.find? name with
    | none => rfl
    | some decl =>
      rcases link_of_find?_some hfind with hlink | ⟨missing, hlink⟩ <;>
        rw [hlink] at h <;> cases h
  · exact link_of_find?_none

/-- On every graph of dependencies, cycles included, linking a name ends in one of three ways. The
name is not declared, and then it is reported itself. It and every name that it reaches through
superclasses, interfaces and requirements of declared types are declared, and then its declaration
is what comes of it. Or it reaches a name that is not declared, and then such a name is reported as
missing to it. To find out, the walk visits the names that it comes to once each, and no more of
them than there are declared types. -/
theorem link_by_reachability (c : Catalog) (name : String) :
    (c.link name = .error (.notFound name) ↔ c.find? name = none) ∧
      (∀ decl, c.link name = .ok decl ↔ c.find? name = some decl ∧
        ∀ target, Reaches c.DependsOn name target → ∃ other, c.find? target = some other) ∧
      (∀ decl target, c.find? name = some decl → Reaches c.DependsOn name target →
        c.find? target = none →
          ∃ missing, c.link name = .error (.missingDependency name missing) ∧
            Reaches c.DependsOn name missing ∧ c.find? missing = none) ∧
      ∀ decl, c.find? name = some decl →
        (name :: (c.walk [name] decl.dependencies.reverse).visited).Nodup ∧
          (c.walk [name] decl.dependencies.reverse).visited.length ≤ c.size := by
  refine ⟨link_eq_notFound_iff, fun decl => link_eq_ok_iff,
    fun decl target => link_of_reaches_undeclared, fun decl hfind => ⟨?_, ?_⟩⟩
  · obtain ⟨hnodup, hnew⟩ := nodup_visited c [name] decl.dependencies.reverse
    exact List.nodup_cons.2 ⟨fun hmem => hnew name hmem List.mem_cons_self, hnodup⟩
  · exact length_visited_le_size hfind

end PluginDiscovery.Catalog
