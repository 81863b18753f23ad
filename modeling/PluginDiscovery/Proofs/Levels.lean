import PluginDiscovery.Proofs.AncestorSearch

/-!
# Ancestors level by level

The queue of `Catalog.inherited` holds the rest of one level of the search and, behind it, what has
come of the next one so far; names may stand in it several times, in both parts. Dealing with the
rest of a level (`inherited_append`) leaves exactly the next level in the queue, so the search goes
level by level without ever saying so (`inherited_eq_levels`).

Level zero is the type itself. Every further level holds the parents of the level before it that
are in no earlier level. By induction on the levels these are the names to which a shortest path
from the type has just as many steps (`mem_level_iff`), hence the ancestors that come first are
never farther away than those that come later.
-/

namespace PluginDiscovery.Catalog

variable {c : Catalog} {decl : TypeDecl} {seen names level : List String} {name : String} {n : Nat}

/-! ## Levels -/

/-- If nothing new among some names is declared, no parents come of it. -/
theorem parentsOf_eq_nil (h : ∀ name ∈ names, c.find? name = none) : c.parentsOf names = [] := by
  refine List.flatMap_eq_nil_iff.2 fun name hname => ?_
  rw [h name hname]
  rfl

/-- Whoever has seen a declared name more has fewer names left to see. -/
theorem unseen_lt_of_mem {seen' : List String} (h : ∀ name ∈ seen, name ∈ seen')
    (hname : name ∈ seen') (hnew : name ∉ seen) (hfind : c.find? name = some decl) :
    c.unseen seen' < c.unseen seen := by
  have hle : c.unseen seen' ≤ c.unseen (name :: seen) := by
    refine c.unseen_mono fun other hother => ?_
    rcases List.mem_cons.1 hother with rfl | hother
    · exact hname
    · exact h other hother
  exact Nat.lt_of_le_of_lt hle (unseen_cons_lt hfind hnew)

/-- The levels of a search from some names: the new ones among them, then the new ones among the
parents of those, and so on until nothing new comes. -/
def levelsFrom (c : Catalog) (seen names : List String) : List (List String) :=
  let level := newNames seen names
  if _hlevel : level = [] then []
  else level :: c.levelsFrom (level.reverse ++ seen) (c.parentsOf level)
termination_by (c.unseen seen, names.length)
decreasing_by
  have hmem : ∀ name ∈ seen, name ∈ (newNames seen names).reverse ++ seen :=
    fun name hname => List.mem_append_right _ hname
  rcases Nat.lt_or_eq_of_le (c.unseen_mono hmem) with hless | hsame
  · exact Prod.Lex.left _ _ hless
  · -- then the level has no declared name in it, and so it is the last one
    have hnone : ∀ name ∈ newNames seen names, c.find? name = none := by
      intro name hname
      cases hfind : c.find? name with
      | none => rfl
      | some decl =>
        have hlevel : name ∈ (newNames seen names).reverse ++ seen :=
          List.mem_append_left _ (List.mem_reverse.2 hname)
        have hless := unseen_lt_of_mem hmem hlevel (mem_newNames_iff.1 hname).2 hfind
        omega
    have hnames : names ≠ [] := by
      rintro rfl
      exact _hlevel rfl
    rw [hsame, parentsOf_eq_nil hnone]
    exact Prod.Lex.right _ (List.length_pos_iff.2 hnames)

/-- The levels of the search for the ancestors of a type, which is level zero itself. -/
def levels (c : Catalog) (decl : TypeDecl) : List (List String) :=
  [decl.name] :: c.levelsFrom [decl.name] decl.parents

theorem levelsFrom_of_eq_nil (h : newNames seen names = []) : c.levelsFrom seen names = [] := by
  rw [levelsFrom, dif_pos h]

theorem levelsFrom_of_ne_nil (h : newNames seen names ≠ []) :
    c.levelsFrom seen names =
      newNames seen names ::
        c.levelsFrom ((newNames seen names).reverse ++ seen)
          (c.parentsOf (newNames seen names)) := by
  rw [levelsFrom, dif_neg h]

theorem interfacesOf_append (c : Catalog) (names others : List String) :
    c.interfacesOf (names ++ others) = c.interfacesOf names ++ c.interfacesOf others := by
  rw [interfacesOf, List.filterMap_append, List.filter_append]
  rfl

/-- Once the names of the queue are dealt with, what waits is the next level. -/
theorem inherited_eq_append (c : Catalog) (seen names : List String) :
    c.inherited seen names =
      c.interfacesOf (newNames seen names) ++
        c.inherited ((newNames seen names).reverse ++ seen)
          (c.parentsOf (newNames seen names)) := by
  have hall := inherited_append c seen names []
  rw [List.append_nil, List.nil_append] at hall
  exact hall

/-- A search that works off its queue lists the interfaces of one level after the other. -/
theorem inherited_eq_levels (c : Catalog) (seen names : List String) :
    c.inherited seen names = c.interfacesOf (c.levelsFrom seen names).flatten := by
  induction seen, names using levelsFrom.induct c with
  | case1 seen names level hlevel =>
    have hnone : newNames seen names = [] := hlevel
    rw [inherited_eq_append, levelsFrom_of_eq_nil hnone, hnone]
    rw [parentsOf_eq_nil fun name hname => absurd hname List.not_mem_nil, inherited]
    rfl
  | case2 seen names level hlevel ih =>
    rw [inherited_eq_append, levelsFrom_of_ne_nil hlevel, List.flatten_cons, interfacesOf_append]
    exact congrArg _ ih

/-! ## Distances -/

/-- The names to which one step leads from a name in the search for the ancestors of a type. From
the name of that type itself the steps are its own, whatever the catalog declares under the name. -/
def nextNames (c : Catalog) (decl : TypeDecl) (name : String) : List String :=
  if name = decl.name then decl.parents else c.parentsOf [name]

/-- A path of a number of steps leads from a type to a name. -/
inductive LeadsTo (c : Catalog) (decl : TypeDecl) : Nat → String → Prop where
  /-- The type's own name is no step away. -/
  | start : LeadsTo c decl 0 decl.name
  /-- A path that goes on by one more step. -/
  | step {n : Nat} {source target : String} (h : LeadsTo c decl n source)
      (htarget : target ∈ c.nextNames decl source) : LeadsTo c decl (n + 1) target

/-- A shortest path from a type to a name has this number of steps. -/
def AtDistance (c : Catalog) (decl : TypeDecl) (n : Nat) (name : String) : Prop :=
  c.LeadsTo decl n name ∧ ∀ m < n, ¬c.LeadsTo decl m name

theorem leadsTo_zero_iff : c.LeadsTo decl 0 name ↔ name = decl.name := by
  constructor
  · rintro ⟨⟩
    rfl
  · rintro rfl
    exact .start

theorem leadsTo_succ_iff :
    c.LeadsTo decl (n + 1) name ↔
      ∃ source, c.LeadsTo decl n source ∧ name ∈ c.nextNames decl source := by
  constructor
  · rintro (_ | ⟨hsource, hname⟩)
    exact ⟨_, hsource, hname⟩
  · rintro ⟨source, hsource, hname⟩
    exact hsource.step hname

theorem mem_parentsOf_iff :
    name ∈ c.parentsOf names ↔ ∃ source ∈ names, name ∈ c.parentsOf [source] := by
  simp [parentsOf]

/-- Where a level-by-level search stands after level `n`: it has seen the names at no greater
distance, and the new ones among the names that wait are those to which one step more leads. -/
structure Stands (c : Catalog) (decl : TypeDecl) (n : Nat) (seen names : List String) : Prop where
  /-- The names seen are those that can be reached in `n` steps or fewer. -/
  seen_iff : ∀ name, name ∈ seen ↔ ∃ m ≤ n, c.LeadsTo decl m name
  /-- The names that wait and were not seen are those to which a path of one step more leads. -/
  names_iff : ∀ name, name ∉ seen → (name ∈ names ↔ c.LeadsTo decl (n + 1) name)

theorem Stands.start (c : Catalog) (decl : TypeDecl) :
    c.Stands decl 0 [decl.name] decl.parents where
  seen_iff name := by
    rw [List.mem_singleton, ← leadsTo_zero_iff (c := c)]
    constructor
    · intro hname
      exact ⟨0, Nat.le_refl 0, hname⟩
    · rintro ⟨m, hm, hname⟩
      rw [Nat.le_zero.1 hm] at hname
      exact hname
  names_iff name _ := by
    rw [leadsTo_succ_iff]
    constructor
    · intro hname
      exact ⟨decl.name, .start, by rwa [nextNames, if_pos rfl]⟩
    · rintro ⟨source, hsource, hname⟩
      rw [leadsTo_zero_iff] at hsource
      rwa [nextNames, if_pos hsource] at hname

/-- The next level holds the names that are one step farther away. -/
theorem Stands.mem_newNames_iff (h : c.Stands decl n seen names) :
    name ∈ newNames seen names ↔ c.AtDistance decl (n + 1) name := by
  rw [Catalog.mem_newNames_iff]
  constructor
  · rintro ⟨hmem, hnew⟩
    refine ⟨(h.names_iff name hnew).1 hmem, fun m hm hpath => ?_⟩
    exact hnew ((h.seen_iff name).2 ⟨m, Nat.le_of_lt_succ hm, hpath⟩)
  · rintro ⟨hpath, hshortest⟩
    have hnew : name ∉ seen := by
      intro hmem
      obtain ⟨m, hm, hshorter⟩ := (h.seen_iff name).1 hmem
      exact hshortest m (Nat.lt_succ_of_le hm) hshorter
    exact ⟨(h.names_iff name hnew).2 hpath, hnew⟩

/-- A path of one step more than the search has gone leads to a name that it has seen or that is in
its next level. -/
theorem Stands.mem_or_mem_newNames (h : c.Stands decl n seen names)
    (hpath : c.LeadsTo decl (n + 1) name) : name ∈ seen ∨ name ∈ newNames seen names := by
  by_cases hseen : name ∈ seen
  · exact .inl hseen
  · exact .inr (Catalog.mem_newNames_iff.2 ⟨(h.names_iff name hseen).2 hpath, hseen⟩)

theorem Stands.mem_seen_next_iff (h : c.Stands decl n seen names) :
    name ∈ (newNames seen names).reverse ++ seen ↔ ∃ m ≤ n + 1, c.LeadsTo decl m name := by
  rw [List.mem_append, List.mem_reverse]
  constructor
  · rintro (hlevel | hmem)
    · exact ⟨n + 1, Nat.le_refl _, (h.mem_newNames_iff.1 hlevel).1⟩
    · obtain ⟨m, hm, hpath⟩ := (h.seen_iff name).1 hmem
      exact ⟨m, Nat.le_succ_of_le hm, hpath⟩
  · rintro ⟨m, hm, hpath⟩
    rcases Nat.le_succ_iff.1 hm with hle | rfl
    · exact .inr ((h.seen_iff name).2 ⟨m, hle, hpath⟩)
    · exact (h.mem_or_mem_newNames hpath).symm

/-- The type itself is in no later level, so from there on all steps are those of the catalog. -/
theorem Stands.nextNames_of_mem_newNames (h : c.Stands decl n seen names)
    (hlevel : name ∈ newNames seen names) : c.nextNames decl name = c.parentsOf [name] := by
  have hself : decl.name ∈ seen := (h.seen_iff decl.name).2 ⟨0, Nat.zero_le n, .start⟩
  have hne : name ≠ decl.name := by
    rintro rfl
    exact (Catalog.mem_newNames_iff.1 hlevel).2 hself
  rw [nextNames, if_neg hne]

/-- Dealing with one level brings the search to the next. -/
theorem Stands.next (h : c.Stands decl n seen names) :
    c.Stands decl (n + 1) ((newNames seen names).reverse ++ seen)
      (c.parentsOf (newNames seen names)) where
  seen_iff _ := h.mem_seen_next_iff
  names_iff name hnew := by
    rw [leadsTo_succ_iff, mem_parentsOf_iff]
    constructor
    · rintro ⟨source, hsource, hname⟩
      refine ⟨source, (h.mem_newNames_iff.1 hsource).1, ?_⟩
      rw [h.nextNames_of_mem_newNames hsource]
      exact hname
    · rintro ⟨source, hsource, hname⟩
      rcases h.mem_or_mem_newNames hsource with hmem | hlevel
      · -- a source seen before would have brought the name into view already
        obtain ⟨m, hm, hpath⟩ := (h.seen_iff source).1 hmem
        have hseen := h.mem_seen_next_iff.2 ⟨m + 1, Nat.succ_le_succ hm, hpath.step hname⟩
        exact absurd hseen hnew
      · rw [h.nextNames_of_mem_newNames hlevel] at hname
        exact ⟨source, hlevel, hname⟩

theorem Stands.mem_levelsFrom_iff (h : c.Stands decl n seen names) {k : Nat}
    (hlevel : (c.levelsFrom seen names)[k]? = some level) :
    name ∈ level ↔ c.AtDistance decl (n + 1 + k) name := by
  induction k generalizing n seen names with
  | zero =>
    by_cases hnone : newNames seen names = []
    · rw [levelsFrom_of_eq_nil hnone] at hlevel
      cases hlevel
    · rw [levelsFrom_of_ne_nil hnone, List.getElem?_cons_zero] at hlevel
      rw [← Option.some.inj hlevel]
      exact h.mem_newNames_iff
  | succ k ih =>
    by_cases hnone : newNames seen names = []
    · rw [levelsFrom_of_eq_nil hnone] at hlevel
      cases hlevel
    · rw [levelsFrom_of_ne_nil hnone, List.getElem?_cons_succ] at hlevel
      rw [ih h.next hlevel, Nat.add_assoc (n + 1), Nat.add_comm 1 k]

/-- Each level holds the names at just that distance. -/
theorem mem_level_iff {k : Nat} (hlevel : (c.levels decl)[k]? = some level) :
    name ∈ level ↔ c.AtDistance decl k name := by
  cases k with
  | zero =>
    rw [levels, List.getElem?_cons_zero] at hlevel
    rw [← Option.some.inj hlevel, List.mem_singleton, ← leadsTo_zero_iff (c := c)]
    exact (and_iff_left fun m hm => absurd hm (Nat.not_lt_zero m)).symm
  | succ k =>
    rw [levels, List.getElem?_cons_succ] at hlevel
    rw [(Stands.start c decl).mem_levelsFrom_iff hlevel, Nat.zero_add, Nat.add_comm]

/-! ## The order of the ancestors -/

/-- A name is no farther away from a type than another one. -/
def NoFarther (c : Catalog) (decl : TypeDecl) (near far : String) : Prop :=
  ∃ m n, m ≤ n ∧ c.AtDistance decl m near ∧ c.AtDistance decl n far

theorem pairwise_flatten_levels (c : Catalog) (decl : TypeDecl) :
    (c.levels decl).flatten.Pairwise (c.NoFarther decl) := by
  rw [List.pairwise_flatten]
  constructor
  · intro level hlevel
    obtain ⟨k, hk⟩ := List.mem_iff_getElem?.1 hlevel
    refine List.pairwise_of_forall_mem_list fun near hnear far hfar => ?_
    exact ⟨k, k, Nat.le_refl k, (mem_level_iff hk).1 hnear, (mem_level_iff hk).1 hfar⟩
  · rw [List.pairwise_iff_getElem]
    intro i j hi hj hij near hnear far hfar
    have hnear' := (mem_level_iff (List.getElem?_eq_getElem hi)).1 hnear
    have hfar' := (mem_level_iff (List.getElem?_eq_getElem hj)).1 hfar
    exact ⟨i, j, Nat.le_of_lt hij, hnear', hfar'⟩

/-- Restricting names to the interfaces among them keeps their order. -/
theorem names_interfacesOf_sublist (c : Catalog) (names : List String) :
    ((c.interfacesOf names).map (·.name)).Sublist names := by
  induction names with
  | nil => exact .slnil
  | cons name names ih =>
    cases hfind : c.find? name with
    | none =>
      rw [interfacesOf_cons_of_none hfind]
      exact ih.cons name
    | some decl =>
      rw [interfacesOf_cons_of_some hfind]
      by_cases hinterface : decl.isInterface
      · rw [if_pos hinterface, List.singleton_append, List.map_cons, name_of_find? hfind]
        exact ih.cons_cons name
      · rw [if_neg hinterface, List.nil_append]
        exact ih.cons name

/-- The queue leads through the levels of the search in order. With the type itself as level zero,
and in every further level the parents of the declared types of the level before, each where it
comes first and unless an earlier level has it, the ancestors are the declared interfaces of all
levels but level zero, one level after the other. Each level holds the names at just that distance
from the type, so no ancestor is farther away than one that comes after it. -/
theorem ancestors_by_levels (c : Catalog) (decl : TypeDecl) :
    c.ancestors decl = c.interfacesOf (c.levels decl).tail.flatten ∧
      (∀ k level, (c.levels decl)[k]? = some level →
        ∀ name, name ∈ level ↔ c.AtDistance decl k name) ∧
      ((c.ancestors decl).map (·.name)).Pairwise (c.NoFarther decl) := by
  have hlevels : c.ancestors decl = c.interfacesOf (c.levels decl).tail.flatten :=
    inherited_eq_levels c [decl.name] decl.parents
  refine ⟨hlevels, fun k level hlevel name => mem_level_iff hlevel, ?_⟩
  have hnames : ((c.ancestors decl).map (·.name)).Sublist (c.levels decl).flatten := by
    rw [hlevels, levels, List.tail_cons, List.flatten_cons]
    exact (names_interfacesOf_sublist c _).trans (List.sublist_append_right _ _)
  exact (pairwise_flatten_levels c decl).sublist hnames

/-- Two interfaces that extend each other, and a class that names one of them twice. -/
example :
    let point : TypeDecl := { name := "acme.I", kind := .interface, interfaces := ["acme.J"] }
    let other : TypeDecl :=
      { name := "acme.J", kind := .interface, interfaces := ["acme.X", "acme.I", "acme.J"] }
    let decl : TypeDecl :=
      { name := "acme.A", kind := .concreteClass, superclass := some "acme.J",
        interfaces := ["acme.A", "acme.J"] }
    (ofList [point, other, decl]).levels decl =
      [["acme.A"], ["acme.J"], ["acme.X", "acme.I"]] := by
  cbv

end PluginDiscovery.Catalog
