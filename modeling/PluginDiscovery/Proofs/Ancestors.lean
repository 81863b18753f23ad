import PluginDiscovery.Types.Catalog

/-!
# Which interfaces a type inherits from

`Catalog.ancestors` works off a queue of names and passes over a name that it has seen before. Here
its result is told by paths. The invariant is `Catalog.Pending`: what the walk has still to list are
the interfaces that can be reached from the queue along types that have not been seen. A step of the
walk takes one name off the queue and marks it as seen, which closes all paths through it, but it
also puts the parents of that name into the queue, so nothing is lost
(`pending_cons_of_not_mem`). `mem_inherited_iff` is what follows for whole walks.

A type is never its own ancestor, and no path that comes back to its name counts. For a declared
type this makes no difference: `inherits_iff_reaches` says that its ancestors are the other
interfaces that it reaches in the catalog.
-/

namespace PluginDiscovery.Catalog

variable {c : Catalog}

/-! ## Paths -/

theorem Reaches.mono {step step' : String → String → Prop} (h : ∀ a b, step a b → step' a b)
    {source target : String} (hpath : Reaches step source target) :
    Reaches step' source target := by
  induction hpath with
  | refl => exact .refl _
  | tail _ hstep ih => exact ih.tail (h _ _ hstep)

theorem Reaches.head {step : String → String → Prop} {source next target : String}
    (hstep : step source next) (hpath : Reaches step next target) : Reaches step source target := by
  induction hpath with
  | refl => exact (Reaches.refl source).tail hstep
  | tail _ hlast ih => exact ih.tail hlast

theorem Reaches.trans {step : String → String → Prop} {source middle target : String}
    (hfirst : Reaches step source middle) (hrest : Reaches step middle target) :
    Reaches step source target := by
  induction hrest with
  | refl => exact hfirst
  | tail _ hlast ih => exact ih.tail hlast

/-- One declared type inherits directly from another name, and is not one of those to avoid. -/
def InheritsAvoiding (c : Catalog) (avoided : List String) (source target : String) : Prop :=
  source ∉ avoided ∧ c.InheritsFrom source target

theorem inheritsFrom_iff_of_find? {name target : String} {decl : TypeDecl}
    (h : c.find? name = some decl) : c.InheritsFrom name target ↔ target ∈ decl.parents := by
  constructor
  · rintro ⟨other, hother, hmem⟩
    rw [h] at hother
    exact Option.some.inj hother ▸ hmem
  · intro hmem
    exact ⟨decl, h, hmem⟩

/-- No path leads on from a name that is to be avoided. -/
theorem eq_of_reaches_of_mem {avoided : List String} {source target : String}
    (hsource : source ∈ avoided) (hpath : Reaches (c.InheritsAvoiding avoided) source target) :
    target = source := by
  induction hpath with
  | refl => rfl
  | tail _ hstep ih =>
    subst ih
    exact absurd hsource hstep.1

/-- A path either avoids one name more, or what follows after it last takes a step from that name
does. -/
theorem reaches_avoiding_cons (name : String) {avoided : List String} {source target : String}
    (hpath : Reaches (c.InheritsAvoiding avoided) source target) :
    Reaches (c.InheritsAvoiding (name :: avoided)) source target ∨
      ∃ parent, c.InheritsFrom name parent ∧
        Reaches (c.InheritsAvoiding (name :: avoided)) parent target := by
  induction hpath with
  | refl => exact .inl (.refl source)
  | @tail middle last _ hstep ih =>
    by_cases hname : middle = name
    · subst hname
      exact .inr ⟨last, hstep.2, .refl last⟩
    · have hmiddle : middle ∉ name :: avoided := by
        intro hmem
        rcases List.mem_cons.1 hmem with heq | hmem
        · exact hname heq
        · exact hstep.1 hmem
      rcases ih with hsource | ⟨parent, hparent, hrest⟩
      · exact .inl (hsource.tail ⟨hmiddle, hstep.2⟩)
      · exact .inr ⟨parent, hparent, hrest.tail ⟨hmiddle, hstep.2⟩⟩

theorem reaches_of_avoiding_cons {avoided : List String} {name source target : String}
    (hpath : Reaches (c.InheritsAvoiding (name :: avoided)) source target) :
    Reaches (c.InheritsAvoiding avoided) source target :=
  hpath.mono fun _ _ hstep => ⟨fun hmem => hstep.1 (List.mem_cons_of_mem _ hmem), hstep.2⟩

/-! ## The invariant of the walk -/

/-- A name has not been seen, but can be reached from a queue along names that have not been. -/
def Pending (c : Catalog) (seen queue : List String) (target : String) : Prop :=
  target ∉ seen ∧ ∃ start ∈ queue, Reaches (c.InheritsAvoiding seen) start target

theorem not_pending_nil {seen : List String} {target : String} : ¬c.Pending seen [] target := by
  rintro ⟨-, start, hstart, -⟩
  exact List.not_mem_nil hstart

/-- A name that was seen before leads nowhere. -/
theorem pending_cons_of_mem {seen queue : List String} {name target : String}
    (hseen : name ∈ seen) :
    c.Pending seen (name :: queue) target ↔ c.Pending seen queue target := by
  constructor
  · rintro ⟨htarget, start, hstart, hpath⟩
    rcases List.mem_cons.1 hstart with rfl | hstart
    · exact absurd (eq_of_reaches_of_mem hseen hpath ▸ hseen) htarget
    · exact ⟨htarget, start, hstart, hpath⟩
  · rintro ⟨htarget, start, hstart, hpath⟩
    exact ⟨htarget, start, List.mem_cons_of_mem _ hstart, hpath⟩

/-- A name that is seen for the first time is reached itself; what is reached through it can be
reached from its parents. -/
theorem pending_cons_of_not_mem {seen queue parents : List String} {name target : String}
    (hseen : name ∉ seen) (hparents : ∀ parent, c.InheritsFrom name parent ↔ parent ∈ parents) :
    c.Pending seen (name :: queue) target ↔
      target = name ∨ c.Pending (name :: seen) (queue ++ parents) target := by
  constructor
  · rintro ⟨htarget, start, hstart, hpath⟩
    by_cases hname : target = name
    · exact .inl hname
    · have hnot : target ∉ name :: seen := by
        intro hmem
        rcases List.mem_cons.1 hmem with heq | hmem
        · exact hname heq
        · exact htarget hmem
      refine .inr ⟨hnot, ?_⟩
      rcases reaches_avoiding_cons name hpath with hrest | ⟨parent, hparent, hrest⟩
      · rcases List.mem_cons.1 hstart with rfl | hstart
        · exact absurd (eq_of_reaches_of_mem List.mem_cons_self hrest) hname
        · exact ⟨start, List.mem_append_left _ hstart, hrest⟩
      · exact ⟨parent, List.mem_append_right _ ((hparents parent).1 hparent), hrest⟩
  · rintro (rfl | ⟨htarget, start, hstart, hpath⟩)
    · exact ⟨hseen, target, List.mem_cons_self, .refl target⟩
    · refine ⟨fun hmem => htarget (List.mem_cons_of_mem _ hmem), ?_⟩
      have hrest := reaches_of_avoiding_cons hpath
      rcases List.mem_append.1 hstart with hqueue | hparent
      · exact ⟨start, List.mem_cons_of_mem _ hqueue, hrest⟩
      · exact ⟨name, List.mem_cons_self, hrest.head ⟨hseen, (hparents start).2 hparent⟩⟩

/-! ## What one step lists -/

theorem inherited_cons_of_mem {seen queue : List String} {name : String} (hseen : name ∈ seen) :
    c.inherited seen (name :: queue) = c.inherited seen queue := by
  rw [inherited, dif_pos hseen]

theorem inherited_cons_of_none {seen queue : List String} {name : String} (hseen : name ∉ seen)
    (hfind : c.find? name = none) :
    c.inherited seen (name :: queue) = c.inherited (name :: seen) queue := by
  rw [inherited, dif_neg hseen]
  split
  · rfl
  · next decl hdecl =>
    rw [hfind] at hdecl
    cases hdecl

theorem inherited_cons_of_some {seen queue : List String} {name : String} {decl : TypeDecl}
    (hseen : name ∉ seen) (hfind : c.find? name = some decl) :
    c.inherited seen (name :: queue) =
      (if decl.isInterface then [decl] else []) ++
        c.inherited (name :: seen) (queue ++ decl.parents) := by
  rw [inherited, dif_neg hseen]
  split
  · next hnone =>
    rw [hfind] at hnone
    cases hnone
  · next other hother =>
    have hsame : decl = other := Option.some.inj (hfind.symm.trans hother)
    subst hsame
    by_cases hinterface : decl.isInterface
    · rw [if_pos hinterface, if_pos hinterface]
      rfl
    · rw [if_neg hinterface, if_neg hinterface]
      rfl

/-- A declared interface that a walk has still to list. -/
def Awaited (c : Catalog) (seen queue : List String) (other : TypeDecl) : Prop :=
  c.find? other.name = some other ∧ other.isInterface = true ∧ c.Pending seen queue other.name

theorem awaited_cons_of_mem {seen queue : List String} {name : String} {other : TypeDecl}
    (hseen : name ∈ seen) : c.Awaited seen (name :: queue) other ↔ c.Awaited seen queue other := by
  rw [Awaited, Awaited, pending_cons_of_mem hseen]

theorem awaited_cons_of_none {seen queue : List String} {name : String} {other : TypeDecl}
    (hseen : name ∉ seen) (hfind : c.find? name = none) :
    c.Awaited seen (name :: queue) other ↔ c.Awaited (name :: seen) queue other := by
  have hparents : ∀ parent, c.InheritsFrom name parent ↔ parent ∈ [] := by
    intro parent
    simp [InheritsFrom, hfind]
  unfold Awaited
  rw [pending_cons_of_not_mem hseen hparents, List.append_nil]
  constructor
  · rintro ⟨hother, hinterface, heq | hpending⟩
    · rw [heq, hfind] at hother
      cases hother
    · exact ⟨hother, hinterface, hpending⟩
  · rintro ⟨hother, hinterface, hpending⟩
    exact ⟨hother, hinterface, .inr hpending⟩

theorem awaited_cons_of_some {seen queue : List String} {name : String} {decl other : TypeDecl}
    (hseen : name ∉ seen) (hfind : c.find? name = some decl) :
    c.Awaited seen (name :: queue) other ↔
      (other = decl ∧ decl.isInterface = true) ∨
        c.Awaited (name :: seen) (queue ++ decl.parents) other := by
  have hname : decl.name = name := name_of_find? hfind
  unfold Awaited
  rw [pending_cons_of_not_mem hseen fun _ => inheritsFrom_iff_of_find? hfind]
  constructor
  · rintro ⟨hother, hinterface, heq | hpending⟩
    · rw [heq, hfind] at hother
      have hsame : decl = other := Option.some.inj hother
      exact .inl ⟨hsame.symm, hsame ▸ hinterface⟩
    · exact .inr ⟨hother, hinterface, hpending⟩
  · rintro (⟨rfl, hinterface⟩ | ⟨hother, hinterface, hpending⟩)
    · exact ⟨hname.symm ▸ hfind, hinterface, .inl hname⟩
    · exact ⟨hother, hinterface, .inr hpending⟩

theorem mem_inherited_cons_of_some {seen queue : List String} {name : String}
    {decl other : TypeDecl} (hseen : name ∉ seen) (hfind : c.find? name = some decl) :
    other ∈ c.inherited seen (name :: queue) ↔
      (other = decl ∧ decl.isInterface = true) ∨
        other ∈ c.inherited (name :: seen) (queue ++ decl.parents) := by
  rw [inherited_cons_of_some hseen hfind, List.mem_append]
  by_cases hinterface : decl.isInterface <;> simp [hinterface]

/-- A walk lists exactly what it has to list. -/
theorem mem_inherited_iff {seen queue : List String} {other : TypeDecl} :
    other ∈ c.inherited seen queue ↔ c.Awaited seen queue other := by
  induction seen, queue using inherited.induct c with
  | case1 seen => simp [inherited, Awaited, not_pending_nil]
  | case2 seen name queue hseen ih =>
    rw [inherited_cons_of_mem hseen, awaited_cons_of_mem hseen]
    exact ih
  | case3 seen name queue hseen hfind ih =>
    rw [inherited_cons_of_none hseen hfind, awaited_cons_of_none hseen hfind]
    exact ih
  | case4 seen name queue hseen decl hfind _ ih =>
    rw [mem_inherited_cons_of_some hseen hfind, awaited_cons_of_some hseen hfind]
    exact or_congr_right ih
  | case5 seen name queue hseen decl hfind _ ih =>
    rw [mem_inherited_cons_of_some hseen hfind, awaited_cons_of_some hseen hfind]
    exact or_congr_right ih

/-! ## Ancestors and extension points -/

/-- A type inherits from another name: a path leads there from one of its parents, and does not come
back to the name of the type on the way. -/
def Inherits (c : Catalog) (decl : TypeDecl) (name : String) : Prop :=
  name ≠ decl.name ∧ ∃ parent ∈ decl.parents,
    Reaches (fun source target => source ≠ decl.name ∧ c.InheritsFrom source target) parent name

theorem inherits_iff_pending {decl : TypeDecl} {name : String} :
    c.Inherits decl name ↔ c.Pending [decl.name] decl.parents name := by
  unfold Inherits Pending InheritsAvoiding
  simp only [List.mem_singleton]

/-- A declared type inherits from the other names that it reaches in the catalog. -/
theorem inherits_iff_reaches {decl : TypeDecl} {name : String}
    (h : c.find? decl.name = some decl) :
    c.Inherits decl name ↔ name ≠ decl.name ∧ Reaches c.InheritsFrom decl.name name := by
  constructor
  · rintro ⟨hne, parent, hparent, hpath⟩
    have hfirst : c.InheritsFrom decl.name parent := (inheritsFrom_iff_of_find? h).2 hparent
    exact ⟨hne, (hpath.mono fun _ _ hstep => hstep.2).head hfirst⟩
  · rintro ⟨hne, hpath⟩
    have havoiding : Reaches (c.InheritsAvoiding []) decl.name name :=
      hpath.mono fun _ _ hstep => ⟨List.not_mem_nil, hstep⟩
    rw [inherits_iff_pending]
    refine ⟨fun hmem => hne (List.mem_singleton.1 hmem), ?_⟩
    rcases reaches_avoiding_cons decl.name havoiding with hrest | ⟨parent, hparent, hrest⟩
    · exact absurd (eq_of_reaches_of_mem List.mem_cons_self hrest) hne
    · exact ⟨parent, (inheritsFrom_iff_of_find? h).1 hparent, hrest⟩

/-- The ancestors of a type are the declared interfaces that it inherits from. -/
theorem mem_ancestors_iff {decl other : TypeDecl} :
    other ∈ c.ancestors decl ↔
      c.find? other.name = some other ∧ other.isInterface = true ∧ c.Inherits decl other.name := by
  rw [ancestors, mem_inherited_iff, inherits_iff_pending]
  rfl

theorem reaches_of_mem_ancestors {decl other : TypeDecl} (hdecl : c.find? decl.name = some decl)
    (h : other ∈ c.ancestors decl) : Reaches c.InheritsFrom decl.name other.name := by
  obtain ⟨-, -, hinherits⟩ := mem_ancestors_iff.1 h
  exact ((inherits_iff_reaches hdecl).1 hinherits).2

/-- A declared type has the ancestors of all types that it reaches, itself excepted. The path that
is put together may come back to the type or pass through the one in the middle again; that there is
one is enough. -/
theorem mem_ancestors_of_reaches {decl middle other : TypeDecl}
    (hdecl : c.find? decl.name = some decl) (hmiddle : c.find? middle.name = some middle)
    (hpath : Reaches c.InheritsFrom decl.name middle.name) (hother : other ∈ c.ancestors middle)
    (hne : other ≠ decl) : other ∈ c.ancestors decl := by
  obtain ⟨hfind, hinterface, -⟩ := mem_ancestors_iff.1 hother
  have hname : other.name ≠ decl.name := by
    intro heq
    rw [heq, hdecl] at hfind
    exact hne (Option.some.inj hfind).symm
  have hreaches : Reaches c.InheritsFrom decl.name other.name :=
    hpath.trans (reaches_of_mem_ancestors hmiddle hother)
  exact mem_ancestors_iff.2 ⟨hfind, hinterface, (inherits_iff_reaches hdecl).2 ⟨hname, hreaches⟩⟩

/-- A name is that of a marked interface. -/
def IsExtensionPoint (c : Catalog) (name : String) : Prop :=
  ∃ decl, c.find? name = some decl ∧ decl.isInterface = true ∧ decl.isMarked = true

theorem any_extensionPoints_iff {decl : TypeDecl} {name : String} :
    (c.extensionPoints decl).any (·.name = name) = true ↔
      c.IsExtensionPoint name ∧ c.Inherits decl name := by
  rw [List.any_eq_true]
  constructor
  · rintro ⟨other, hmem, hname⟩
    have heq : other.name = name := of_decide_eq_true hname
    obtain ⟨hancestor, hmarked⟩ := List.mem_filter.1 hmem
    obtain ⟨hfind, hinterface, hinherits⟩ := mem_ancestors_iff.1 hancestor
    rw [heq] at hfind hinherits
    exact ⟨⟨other, hfind, hinterface, hmarked⟩, hinherits⟩
  · rintro ⟨⟨other, hfind, hinterface, hmarked⟩, hinherits⟩
    have heq : other.name = name := name_of_find? hfind
    rw [← heq] at hfind hinherits
    refine ⟨other, List.mem_filter.2 ⟨?_, hmarked⟩, decide_eq_true heq⟩
    exact mem_ancestors_iff.2 ⟨hfind, hinterface, hinherits⟩

/-- A type inherits from a marked interface. -/
def HasExtensionPoint (c : Catalog) (decl : TypeDecl) : Prop :=
  ∃ name, c.IsExtensionPoint name ∧ c.Inherits decl name

theorem extensionPoints_ne_nil_iff {decl : TypeDecl} :
    c.extensionPoints decl ≠ [] ↔ c.HasExtensionPoint decl := by
  constructor
  · intro hne
    obtain ⟨other, hmem⟩ := List.exists_mem_of_ne_nil _ hne
    refine ⟨other.name, any_extensionPoints_iff.1 ?_⟩
    exact List.any_eq_true.2 ⟨other, hmem, decide_eq_true rfl⟩
  · rintro ⟨name, hpoint⟩ hnil
    have hany := any_extensionPoints_iff.2 hpoint
    rw [hnil] at hany
    cases hany

instance (c : Catalog) (decl : TypeDecl) : Decidable (c.HasExtensionPoint decl) :=
  decidable_of_iff _ extensionPoints_ne_nil_iff

end PluginDiscovery.Catalog
