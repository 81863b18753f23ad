import PluginDiscovery.NameMap
import PluginDiscovery.Types.Basic

/-!
# Catalogs

A catalog is the table of all declared types, by name. Two walks start from a declaration:

* `Catalog.link` asks whether everything that a type links against is declared, directly or
  through others. It follows a stack, so of several missing types it reports the one that a
  depth-first walk meets first, which takes the last dependency of a type before the earlier ones.
* `Catalog.ancestors` lists the interfaces that a type inherits from, nearest first. It follows a
  queue, level by level, and passes over names that are not declared.

Both walks visit a name once, so they end on every graph, cycles included: each visited name is
either undeclared, and then the list of pending names shrinks, or one declared name fewer is left.
-/

namespace PluginDiscovery

/-- All declared types, each under its own name. -/
structure Catalog where
  /-- The declarations by name. -/
  types : NameMap TypeDecl := ∅
  /-- Every declaration is filed under its own name. -/
  filed : ∀ name decl, types.find? name = some decl → decl.name = name := by intro _ _ h; cases h

namespace Catalog

/-- The catalog without types. -/
def empty : Catalog := {}

instance : Inhabited Catalog := ⟨empty⟩

/-- Adds a type; an earlier type of the same name is replaced. -/
def register (c : Catalog) (decl : TypeDecl) : Catalog where
  types := c.types.insert decl.name decl
  filed name other h := by
    rw [NameMap.find?_insert] at h
    split at h
    · next heq => exact (Option.some.inj h) ▸ heq.symm
    · exact c.filed name other h

/-- The catalog of a list of declarations, of which the last of each name counts. -/
def ofList (decls : List TypeDecl) : Catalog := decls.foldl register empty

/-- The declaration of a name. -/
def find? (c : Catalog) (name : String) : Option TypeDecl := c.types.find? name

/-- The declared names, in increasing order. -/
def names (c : Catalog) : List String := c.types.names

/-- The number of declared types. -/
def size (c : Catalog) : Nat := c.types.size

theorem name_of_find? {c : Catalog} {name : String} {decl : TypeDecl}
    (h : c.find? name = some decl) : decl.name = name :=
  c.filed name decl h

theorem find?_register (c : Catalog) (decl : TypeDecl) (name : String) :
    (c.register decl).find? name = if name = decl.name then some decl else c.find? name :=
  NameMap.find?_insert c.types decl.name name decl

theorem mem_names_of_find? {c : Catalog} {name : String} {decl : TypeDecl}
    (h : c.find? name = some decl) : name ∈ c.names :=
  c.types.mem_names_iff.2 ⟨decl, h⟩

/-- A catalog of types of distinct names holds exactly those types. -/
theorem find?_ofList_eq_some_iff {decls : List TypeDecl} (h : (decls.map (·.name)).Nodup)
    {name : String} {decl : TypeDecl} :
    (ofList decls).find? name = some decl ↔ decl ∈ decls ∧ decl.name = name := by
  have htypes : (ofList decls).types =
      NameMap.ofList (decls.map fun decl => (decl.name, decl)) := by
    unfold ofList NameMap.ofList
    rw [List.foldl_map]
    exact (List.foldl_hom types fun _ _ => rfl).symm
  have hnames : ((decls.map fun decl => (decl.name, decl)).map (·.1)).Nodup := by
    rw [List.map_map]
    exact h
  rw [find?, htypes, NameMap.find?_ofList_eq_some_iff hnames, List.mem_map]
  constructor
  · rintro ⟨other, hother, heq⟩
    cases heq
    exact ⟨hother, rfl⟩
  · rintro ⟨hmem, rfl⟩
    exact ⟨decl, hmem, rfl⟩

/-! ## What is left to visit -/

/-- The number of declared names that a walk has not seen. -/
def unseen (c : Catalog) (seen : List String) : Nat := c.names.countP (· ∉ seen)

/-- The more a walk has seen, the less is left. -/
theorem unseen_mono (c : Catalog) {seen seen' : List String} (h : ∀ name ∈ seen, name ∈ seen') :
    c.unseen seen' ≤ c.unseen seen := by
  refine List.countP_mono_left fun other _ hother => ?_
  have hnew : other ∉ seen' := of_decide_eq_true hother
  exact decide_eq_true fun hmem => hnew (h other hmem)

theorem unseen_cons_le (c : Catalog) (seen : List String) (name : String) :
    c.unseen (name :: seen) ≤ c.unseen seen :=
  c.unseen_mono fun _ hmem => List.mem_cons_of_mem name hmem

/-- Seeing a declared name for the first time leaves one name fewer. -/
theorem unseen_cons_lt {c : Catalog} {seen : List String} {name : String} {decl : TypeDecl}
    (hfind : c.find? name = some decl) (hseen : name ∉ seen) :
    c.unseen (name :: seen) < c.unseen seen := by
  have hmem : name ∈ c.names := mem_names_of_find? hfind
  unfold unseen
  generalize c.names = names at hmem
  induction names with
  | nil => cases hmem
  | cons first rest ih =>
    have hle : rest.countP (· ∉ name :: seen) ≤ rest.countP (· ∉ seen) :=
      List.countP_mono_left fun other _ h => by simp_all
    by_cases hfirst : first = name
    · subst hfirst
      simp only [List.countP_cons, List.mem_cons, true_or, not_true, decide_false, hseen,
        not_false_eq_true, decide_true, if_true]
      simp only [List.mem_cons] at hle
      simpa using Nat.lt_succ_of_le hle
    · have hlt := ih (by simpa [Ne.symm hfirst] using hmem)
      simp only [List.countP_cons, List.mem_cons, hfirst, false_or] at hlt ⊢
      omega

/-! ## Linking -/

/-- Why a type cannot be linked. -/
inductive LinkError where
  /-- The name itself is not declared. -/
  | notFound (name : String)
  /-- The type is declared, but something that it links against is not. -/
  | missingDependency (name missing : String)
deriving DecidableEq, Repr

namespace LinkError

/-- The name that was to be linked. -/
def name : LinkError → String
  | notFound name => name
  | missingDependency name _ => name

/-- The error as a sentence. -/
def message : LinkError → String
  | notFound name => s!"type not found: {name}"
  | missingDependency name missing =>
    s!"type {name} cannot be linked: missing dependency {missing}"

end LinkError

/-- What a walk over dependencies has met. -/
structure Walk where
  /-- The names visited, in order, each once. -/
  visited : List String
  /-- The undeclared name at which the walk stopped; it is the last name visited. -/
  missing : Option String
deriving DecidableEq, Repr

/-- Visits the names of a stack, top first, and all that they link against. The dependencies of a
visited type go on top of the stack, so the last of them is visited next. The walk stops at the
first name that is not declared. -/
def walk (c : Catalog) (seen : List String) : (stack : List String) → Walk
  | [] => ⟨[], none⟩
  | name :: stack =>
    if _hseen : name ∈ seen then c.walk seen stack
    else
      match _hfind : c.find? name with
      | none => ⟨[name], some name⟩
      | some decl =>
        let rest := c.walk (name :: seen) (decl.dependencies.reverse ++ stack)
        ⟨name :: rest.visited, rest.missing⟩
termination_by stack => (c.unseen seen, stack.length)
decreasing_by
  · exact Prod.Lex.right _ (Nat.lt_succ_self _)
  · exact Prod.Lex.left _ _ (unseen_cons_lt _hfind _hseen)

/-- The declaration of a name, if it and everything that it links against are declared. -/
def link (c : Catalog) (name : String) : Except LinkError TypeDecl :=
  match c.find? name with
  | none => .error (.notFound name)
  | some decl =>
    match (c.walk [name] decl.dependencies.reverse).missing with
    | none => .ok decl
    | some missing => .error (.missingDependency name missing)

/-- A linked type is the one declared under its name. -/
theorem find?_of_link {c : Catalog} {name : String} {decl : TypeDecl}
    (h : c.link name = .ok decl) : c.find? name = some decl := by
  unfold link at h
  split at h
  · cases h
  · next other hfind =>
    split at h
    · rw [hfind, Except.ok.inj h]
    · cases h

/-- Linking fails for an undeclared name, and then the name is at fault itself. -/
theorem link_of_find?_none {c : Catalog} {name : String} (h : c.find? name = none) :
    c.link name = .error (.notFound name) := by
  simp [link, h]

/-- A declared type links if the walk over its dependencies does not stop. -/
theorem link_of_missing_eq_none {c : Catalog} {name : String} {decl : TypeDecl}
    (h : c.find? name = some decl)
    (hmissing : (c.walk [name] decl.dependencies.reverse).missing = none) :
    c.link name = .ok decl := by
  simp [link, h, hmissing]

/-- The name at which the walk over the dependencies of a declared type stops is missing to it. -/
theorem link_of_missing_eq_some {c : Catalog} {name missing : String} {decl : TypeDecl}
    (h : c.find? name = some decl)
    (hmissing : (c.walk [name] decl.dependencies.reverse).missing = some missing) :
    c.link name = .error (.missingDependency name missing) := by
  simp [link, h, hmissing]

/-- Linking a declared name fails only for something that it links against. -/
theorem link_of_find?_some {c : Catalog} {name : String} {decl : TypeDecl}
    (h : c.find? name = some decl) :
    c.link name = .ok decl ∨ ∃ missing, c.link name = .error (.missingDependency name missing) := by
  cases hmissing : (c.walk [name] decl.dependencies.reverse).missing with
  | none => exact .inl (link_of_missing_eq_none h hmissing)
  | some missing => exact .inr ⟨missing, link_of_missing_eq_some h hmissing⟩

/-! ## Ancestors -/

/-- Visits the names of a queue, first come first served, and all that they inherit from. Lists the
interfaces among them; a name that is not declared is passed over. -/
def inherited (c : Catalog) (seen : List String) : (queue : List String) → List TypeDecl
  | [] => []
  | name :: queue =>
    if _hseen : name ∈ seen then c.inherited seen queue
    else
      match _hfind : c.find? name with
      | none => c.inherited (name :: seen) queue
      | some decl =>
        let rest := c.inherited (name :: seen) (queue ++ decl.parents)
        if decl.isInterface then decl :: rest else rest
termination_by queue => (c.unseen seen, queue.length)
decreasing_by
  · exact Prod.Lex.right _ (Nat.lt_succ_self _)
  · rcases Nat.lt_or_eq_of_le (unseen_cons_le c seen name) with h | h
    · exact Prod.Lex.left _ _ h
    · exact h ▸ Prod.Lex.right _ (Nat.lt_succ_self _)
  · exact Prod.Lex.left _ _ (unseen_cons_lt _hfind _hseen)

/-- The interfaces that a type inherits from, through its superclasses and their interfaces too,
nearest first. The type itself is not among them. -/
def ancestors (c : Catalog) (decl : TypeDecl) : List TypeDecl :=
  c.inherited [decl.name] decl.parents

/-- The extension points of a type: the marked interfaces among its ancestors. -/
def extensionPoints (c : Catalog) (decl : TypeDecl) : List TypeDecl :=
  (c.ancestors decl).filter (·.isMarked)

/-! ## Reachability -/

/-- One declared type links against another name. -/
def DependsOn (c : Catalog) (source target : String) : Prop :=
  ∃ decl, c.find? source = some decl ∧ target ∈ decl.dependencies

/-- One declared type inherits directly from another name. -/
def InheritsFrom (c : Catalog) (source target : String) : Prop :=
  ∃ decl, c.find? source = some decl ∧ target ∈ decl.parents

/-- A name can be reached from another in any number of steps. -/
inductive Reaches (step : String → String → Prop) : String → String → Prop where
  /-- Every name reaches itself. -/
  | refl (name : String) : Reaches step name name
  /-- A walk that goes on by one more step. -/
  | tail {source middle target : String} (h : Reaches step source middle)
      (hstep : step middle target) : Reaches step source target

end Catalog

end PluginDiscovery
