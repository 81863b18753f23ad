import PluginDiscovery.Proofs.Ancestors
import PluginDiscovery.Proofs.Coherence

/-!
# What a check lists

A check lists the violations rule by rule, and within a rule in the order of the plugins or, for the
rules on names, of the names. `violations_standard` spells the whole list out for any candidates,
not only for those that a load can come up with. The list is empty exactly when the candidates are
`Coherent`, which says what the rules are there for in terms of kinds, names and inheritance.
-/

namespace PluginDiscovery.Coherence

variable {catalog : Catalog} {candidates : Candidates}

/-- These are the names that several of the plugins have, in increasing order. -/
structure Repeated (plugins : List Plugin) (names : List String) : Prop where
  /-- The names increase, so each is listed once. -/
  increasing : names.Pairwise (· < ·)
  /-- A name is listed if at least two plugins have it. -/
  mem_iff : ∀ name, name ∈ names ↔ 2 ≤ (plugins.filter (·.name = name)).length

/-- The rule on names reports the repeated names, each with all its owners. -/
theorem exists_repeated (plugins : List Plugin) :
    ∃ names, Repeated plugins names ∧
      Rule.repeatedNames plugins =
        names.map fun name => ⟨.nameNotUnique, name :: ownersOf plugins name⟩ := by
  refine ⟨_, ⟨?_, fun name => ?_⟩, Rule.repeatedNames_eq plugins⟩
  · exact (NameMap.names_pairwise _).filter _
  · have hlength : (ownersOf plugins name).length = (plugins.filter (·.name = name)).length :=
      List.length_map _
    rw [List.mem_filter, decide_eq_true_iff, Rule.mem_names_owners, ← hlength]
    refine and_iff_right_of_imp fun hlength => ?_
    by_contra hnot
    rw [ownersOf_eq_nil_iff.2 hnot] at hlength
    exact absurd hlength (Nat.not_lt_zero 1)

/-- Extension points are interfaces and implementations concrete classes, names are distinct on
either side, and every implementation inherits from a marked interface. -/
structure Coherent (catalog : Catalog) (candidates : Candidates) : Prop where
  /-- Extension points are interfaces. -/
  interfaces : ∀ plugin ∈ candidates.interfaces, plugin.owner.kind = .interface
  /-- Implementations are concrete classes. -/
  concrete : ∀ plugin ∈ candidates.implementations, plugin.owner.kind = .concreteClass
  /-- No two plugins of one side have the same name. -/
  distinct : ∀ side, ((candidates.on side).map (·.name)).Nodup
  /-- Implementations inherit from a marked interface. -/
  implementing : ∀ plugin ∈ candidates.implementations, catalog.HasExtensionPoint plugin.owner

theorem coherent_iff_holds :
    Coherent catalog candidates ↔ ∀ rule ∈ Rule.standard, rule.Holds catalog candidates := by
  constructor
  · intro h rule _
    cases rule with
    | interfacesAreInterfaces => exact fun plugin hmem => beq_iff_eq.2 (h.interfaces plugin hmem)
    | implementationsAreConcrete => exact fun plugin hmem => beq_iff_eq.2 (h.concrete plugin hmem)
    | uniqueNames side => exact h.distinct side
    | implementsExtensionPoint =>
      exact fun plugin hmem => Catalog.extensionPoints_ne_nil_iff.2 (h.implementing plugin hmem)
  · intro h
    refine ⟨fun plugin hmem => ?_, fun plugin hmem => ?_, fun side => ?_, fun plugin hmem => ?_⟩
    · exact beq_iff_eq.1 (h _ (Rule.mem_standard .interfacesAreInterfaces) plugin hmem)
    · exact beq_iff_eq.1 (h _ (Rule.mem_standard .implementationsAreConcrete) plugin hmem)
    · exact h _ (Rule.mem_standard (.uniqueNames side))
    · have hne := h _ (Rule.mem_standard .implementsExtensionPoint) plugin hmem
      exact Catalog.extensionPoints_ne_nil_iff.1 hne

/-! ## The whole list -/

/-- A rule that looks at single plugins reports those that lack what the rule asks for. -/
theorem map_faultOf_filter (plugins : List Plugin) (code : FaultCode) {broken : Plugin → Bool}
    {Broken : Plugin → Prop} [DecidablePred Broken]
    (h : ∀ plugin, broken plugin = true ↔ Broken plugin) :
    (plugins.filter broken).map (Rule.faultOf code) =
      (plugins.filter fun plugin => Broken plugin).map
        fun plugin => ⟨code, [plugin.owner.name, plugin.name]⟩ := by
  have hfilter : broken = fun plugin => decide (Broken plugin) := by
    funext plugin
    rw [Bool.eq_iff_iff, decide_eq_true_iff]
    exact h plugin
  rw [hfilter]
  rfl

theorem not_isInterface_iff (decl : TypeDecl) :
    (!decl.isInterface) = true ↔ decl.kind ≠ .interface := by
  simp [TypeDecl.isInterface]

theorem not_isConcreteClass_iff (decl : TypeDecl) :
    (!decl.isConcreteClass) = true ↔ decl.kind ≠ .concreteClass := by
  simp [TypeDecl.isConcreteClass]

theorem isEmpty_extensionPoints_iff (decl : TypeDecl) :
    (catalog.extensionPoints decl).isEmpty = true ↔ ¬catalog.HasExtensionPoint decl := by
  rw [List.isEmpty_iff, ← Catalog.extensionPoints_ne_nil_iff, not_not]

/-- A check with the standard rules lists, for any candidates, first the extension points that are
no interfaces, then the implementations that are no concrete classes, both in order; then on either
side the names that several plugins have, in increasing order and each with all its owners in order;
and at last the implementations without extension point, in order. It lists nothing exactly when the
candidates are coherent. -/
theorem violations_standard (catalog : Catalog) (candidates : Candidates) :
    (∃ names : Side → List String, (∀ side, Repeated (candidates.on side) (names side)) ∧
      violations catalog Rule.standard candidates =
        (candidates.interfaces.filter fun plugin => plugin.owner.kind ≠ .interface).map
            (fun plugin => ⟨.notAnInterface, [plugin.owner.name, plugin.name]⟩) ++
          (candidates.implementations.filter fun plugin => plugin.owner.kind ≠ .concreteClass).map
            (fun plugin => ⟨.notAConcreteClass, [plugin.owner.name, plugin.name]⟩) ++
          (names .interfaces).map
            (fun name => ⟨.nameNotUnique, name :: ownersOf candidates.interfaces name⟩) ++
          (names .implementations).map
            (fun name => ⟨.nameNotUnique, name :: ownersOf candidates.implementations name⟩) ++
          (candidates.implementations.filter fun plugin =>
            ¬catalog.HasExtensionPoint plugin.owner).map
              fun plugin => ⟨.noExtensionPoint, [plugin.owner.name, plugin.name]⟩) ∧
      (violations catalog Rule.standard candidates = [] ↔ Coherent catalog candidates) := by
  refine ⟨?_, violations_eq_nil_iff.trans coherent_iff_holds.symm⟩
  choose names hnames hlisted using fun side => exists_repeated (candidates.on side)
  refine ⟨names, hnames, ?_⟩
  have hrules : violations catalog Rule.standard candidates =
      Rule.violations catalog candidates .interfacesAreInterfaces ++
        Rule.violations catalog candidates .implementationsAreConcrete ++
        Rule.violations catalog candidates (.uniqueNames .interfaces) ++
        Rule.violations catalog candidates (.uniqueNames .implementations) ++
        Rule.violations catalog candidates .implementsExtensionPoint := by
    simp [violations, Rule.standard]
  rw [hrules]
  simp only [Rule.violations, hlisted]
  rw [map_faultOf_filter _ _ fun plugin => not_isInterface_iff plugin.owner,
    map_faultOf_filter _ _ fun plugin => not_isConcreteClass_iff plugin.owner,
    map_faultOf_filter _ _ fun plugin => isEmpty_extensionPoints_iff plugin.owner]
  rfl

end PluginDiscovery.Coherence
