import Mathlib
import PluginDiscovery.Proofs.Linking

/-!
# The order in which dependencies are visited

`Catalog.walk` keeps a stack and marks a name when it takes it off, so one name can wait on the
stack several times, and all copies but the first to come off are stale. Here the walk is compared
with the recursive one, `Catalog.preorder`, which has no stack: it marks a name when it enters it
and goes on to the dependencies of that name, the last one first, before it returns.

What ties the two together is that a walk over two parts of a stack is a walk over the first part
and then, from all that this has entered, one over the second part (`preorderAll_append`). Hence the
dependencies that a visited type puts on the stack are dealt with before anything below them, as in
the recursion. The one difference is that `Catalog.walk` stops at the first name that is not
declared (`walk_eq_ofVisits`).
-/

namespace PluginDiscovery.Catalog

/-- Whether a name is declared. -/
def declares (c : Catalog) (name : String) : Bool := (c.find? name).isSome

/-! ## The recursive walk -/

mutual

/-- The names that a depth-first walk enters from a name, in order. A name that was entered before
is left alone; another one is marked first, and then its dependencies have their turn, from the last
to the first. -/
def preorder (c : Catalog) (entered : List String) (name : String) : List String :=
  if _hentered : name ∈ entered then []
  else
    match _hfind : c.find? name with
    | none => [name]
    | some decl => name :: c.preorderAll (name :: entered) decl.dependencies.reverse
termination_by (c.unseen entered, 1)
decreasing_by exact Prod.Lex.left _ _ (unseen_cons_lt _hfind _hentered)

/-- The names that are entered from several names, one after the other. What was entered from one
name stays marked for the next. -/
def preorderAll (c : Catalog) (entered : List String) : (names : List String) → List String
  | [] => []
  | name :: names =>
    let first := c.preorder entered name
    first ++ c.preorderAll (first.reverse ++ entered) names
termination_by names => (c.unseen entered, 2 * names.length)
decreasing_by
  · refine Prod.Lex.right _ ?_
    rw [List.length_cons]
    omega
  · have hlength : 2 * names.length < 2 * (name :: names).length := by
      rw [List.length_cons]
      omega
    have hle : ∀ first : List String, c.unseen (first.reverse ++ entered) ≤ c.unseen entered :=
      fun first => c.unseen_mono fun _ hmem => List.mem_append_right _ hmem
    rcases Nat.lt_or_eq_of_le (hle _) with hless | hsame
    · exact Prod.Lex.left _ _ hless
    · rw [hsame]
      exact Prod.Lex.right _ hlength

end

variable {c : Catalog} {entered : List String} {name : String} {decl : TypeDecl}

theorem preorder_of_mem (h : name ∈ entered) : c.preorder entered name = [] := by
  rw [preorder, dif_pos h]

theorem preorder_of_none (h : name ∉ entered) (hfind : c.find? name = none) :
    c.preorder entered name = [name] := by
  rw [preorder, dif_neg h]
  split
  · rfl
  · next decl hdecl =>
    rw [hfind] at hdecl
    cases hdecl

theorem preorder_of_some (h : name ∉ entered) (hfind : c.find? name = some decl) :
    c.preorder entered name =
      name :: c.preorderAll (name :: entered) decl.dependencies.reverse := by
  rw [preorder, dif_neg h]
  split
  · next hnone =>
    rw [hfind] at hnone
    cases hnone
  · next other hother =>
    have hsame : decl = other := Option.some.inj (hfind.symm.trans hother)
    subst hsame
    rfl

theorem preorderAll_nil : c.preorderAll entered [] = [] := by
  rw [preorderAll]

theorem preorderAll_cons (names : List String) :
    c.preorderAll entered (name :: names) =
      c.preorder entered name ++
        c.preorderAll ((c.preorder entered name).reverse ++ entered) names := by
  rw [preorderAll]

/-- Two lists of names are walked over one after the other. -/
theorem preorderAll_append (entered names others : List String) :
    c.preorderAll entered (names ++ others) =
      c.preorderAll entered names ++
        c.preorderAll ((c.preorderAll entered names).reverse ++ entered) others := by
  induction names generalizing entered with
  | nil => rw [List.nil_append, preorderAll_nil, List.nil_append, List.reverse_nil, List.nil_append]
  | cons name names ih =>
    rw [List.cons_append, preorderAll_cons, preorderAll_cons, ih, List.append_assoc,
      List.reverse_append, List.append_assoc]

/-! ## Both walks at once -/

/-- A walk in the order of given names, up to the first one that is not declared. -/
def Walk.ofVisits (c : Catalog) (names : List String) : Walk where
  visited := names.takeWhile c.declares ++ (names.find? (!c.declares ·)).toList
  missing := names.find? (!c.declares ·)

theorem Walk.ofVisits_cons_of_none (hfind : c.find? name = none) (names : List String) :
    ofVisits c (name :: names) = ⟨[name], some name⟩ := by
  have hdeclares : c.declares name = false := by rw [declares, hfind, Option.isSome_none]
  simp [ofVisits, hdeclares]

theorem Walk.ofVisits_cons_of_some (hfind : c.find? name = some decl) (names : List String) :
    ofVisits c (name :: names) =
      ⟨name :: (ofVisits c names).visited, (ofVisits c names).missing⟩ := by
  have hdeclares : c.declares name = true := by rw [declares, hfind, Option.isSome_some]
  simp [ofVisits, hdeclares]

/-- From any stack and whatever was seen before, the walk over the stack visits the names in the
order of the recursive walk, up to the first one that is not declared. -/
theorem walk_eq_ofVisits (c : Catalog) (seen stack : List String) :
    c.walk seen stack = .ofVisits c (c.preorderAll seen stack) := by
  induction seen, stack using walk.induct c with
  | case1 seen =>
    rw [walk, preorderAll_nil]
    rfl
  | case2 seen name stack hseen ih =>
    -- a stale copy: the recursion enters nothing here
    rw [walk_cons_of_mem hseen, preorderAll_cons, preorder_of_mem hseen]
    exact ih
  | case3 seen name stack hseen hfind =>
    rw [walk_cons_of_none hseen hfind, preorderAll_cons, preorder_of_none hseen hfind]
    exact (Walk.ofVisits_cons_of_none hfind _).symm
  | case4 seen name stack hseen decl hfind ih =>
    have horder : c.preorderAll seen (name :: stack) =
        name :: c.preorderAll (name :: seen) (decl.dependencies.reverse ++ stack) := by
      rw [preorderAll_cons, preorder_of_some hseen hfind, preorderAll_append, List.cons_append,
        List.reverse_cons, List.append_assoc, List.singleton_append]
    rw [walk_cons_of_some hseen hfind, horder, Walk.ofVisits_cons_of_some hfind, ih]

/-- The recursive walk from a declared type first enters its name, which the walk over the stack has
seen from the start. -/
theorem preorder_of_declared (hfind : c.find? name = some decl) :
    c.preorder [] name = name :: c.preorderAll [name] decl.dependencies.reverse :=
  preorder_of_some List.not_mem_nil hfind

/-- Linking a declared type visits it and then names in the order of the recursive depth-first walk,
up to and with the first one that is not declared; where there is none, that is the whole order. The
type links if all names of that order are declared, and otherwise the first one that is not is
reported as missing. -/
theorem link_in_preorder (hfind : c.find? name = some decl) :
    let order := c.preorder [] name
    let missing := order.find? (!c.declares ·)
    name :: (c.walk [name] decl.dependencies.reverse).visited =
        order.takeWhile c.declares ++ missing.toList ∧
      (missing = none → name :: (c.walk [name] decl.dependencies.reverse).visited = order) ∧
      c.link name =
        match missing with
        | none => .ok decl
        | some missing => .error (.missingDependency name missing) := by
  intro order missing
  have hwalk : (⟨name :: (c.walk [name] decl.dependencies.reverse).visited,
      (c.walk [name] decl.dependencies.reverse).missing⟩ : Walk) = .ofVisits c order := by
    rw [walk_eq_ofVisits, ← Walk.ofVisits_cons_of_some hfind, ← preorder_of_declared hfind]
  have hvisited : name :: (c.walk [name] decl.dependencies.reverse).visited =
      order.takeWhile c.declares ++ missing.toList := congrArg Walk.visited hwalk
  have hmissing : (c.walk [name] decl.dependencies.reverse).missing = missing :=
    congrArg Walk.missing hwalk
  refine ⟨hvisited, fun hnone => ?_, ?_⟩
  · have hall : ∀ other ∈ order, c.declares other = true := by
      intro other hother
      have hnot := List.find?_eq_none.1 hnone other hother
      simpa using hnot
    rw [hvisited, hnone, List.takeWhile_eq_self_iff.2 hall]
    exact List.append_nil order
  · cases hcase : missing with
    | none => exact link_of_missing_eq_none hfind (hmissing.trans hcase)
    | some other => exact link_of_missing_eq_some hfind (hmissing.trans hcase)

/-- Types among which `acme.B` waits on the stack three times, for `acme.A`, `acme.C` and `acme.D`.
The copy that was put there last comes off first and leads to a name that is not declared. -/
def tangled : Catalog := .ofList [
  { name := "acme.A", kind := .concreteClass, superclass := some "acme.B",
    requires := ["acme.C"] },
  { name := "acme.B", kind := .concreteClass, superclass := some "acme.A",
    requires := ["acme.X", "acme.C"] },
  { name := "acme.C", kind := .interface, interfaces := ["acme.B", "acme.D"] },
  { name := "acme.D", kind := .interface, interfaces := ["acme.Y", "acme.B"] }]

theorem link_tangled :
    (∃ decl, tangled.find? "acme.A" = some decl) ∧
      tangled.preorder [] "acme.A" =
        ["acme.A", "acme.C", "acme.D", "acme.B", "acme.X", "acme.Y"] ∧
      tangled.link "acme.A" = .error (.missingDependency "acme.A" "acme.X") := by
  have hfind : (tangled.find? "acme.A").isSome = true := by cbv
  obtain ⟨decl, hdecl⟩ := Option.isSome_iff_exists.1 hfind
  have horder : tangled.preorder [] "acme.A" =
      ["acme.A", "acme.C", "acme.D", "acme.B", "acme.X", "acme.Y"] := by cbv
  obtain ⟨-, -, hlink⟩ := link_in_preorder hdecl
  have hmissing : (tangled.preorder [] "acme.A").find? (!tangled.declares ·) = some "acme.X" := by
    rw [horder]
    cbv
  rw [hmissing] at hlink
  exact ⟨⟨decl, hdecl⟩, horder, hlink⟩

end PluginDiscovery.Catalog
