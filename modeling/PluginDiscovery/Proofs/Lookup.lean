import PluginDiscovery.Proofs.Ancestors
import PluginDiscovery.Proofs.Published

/-!
# Looking up implementations

`Registry.implementing` walks over the ancestors of every registered plugin. Which plugins it finds
is told here by inheritance alone: those whose types inherit from the extension point that was asked
for. In a session the types of all published implementations are declared concrete classes, which
have an extension point. So inheriting from one is the same as reaching it in the catalog, and every
implementation is found under at least one. As paths can be put together, it is found under every
extension point that such a one extends (`look_up_through_ancestors`).
-/

namespace PluginDiscovery

namespace Registry

variable {r : Registry} {c : Catalog} {name : String}

theorem implementing_of_none (h : c.find? name = none) :
    r.implementing c name = .error ⟨.unresolvedType, [name, "find_by_interface"]⟩ := by
  simp [implementing, h]

theorem implementing_of_not_isExtensionPoint {decl : TypeDecl} (h : c.find? name = some decl)
    (hnot : ¬c.IsExtensionPoint name) :
    r.implementing c name = .error ⟨.notAnExtensionPoint, [name]⟩ := by
  have hkind : ¬(decl.isInterface && decl.isMarked) = true := by
    intro hboth
    obtain ⟨hinterface, hmarked⟩ := Bool.and_eq_true_iff.1 hboth
    exact hnot ⟨decl, h, hinterface, hmarked⟩
  simp only [implementing, h, if_neg hkind]

theorem implementing_of_isExtensionPoint (h : c.IsExtensionPoint name) :
    r.implementing c name = .ok (r.toList.filter fun plugin =>
      (c.extensionPoints plugin.owner).any (·.name = name)) := by
  obtain ⟨decl, hfind, hinterface, hmarked⟩ := h
  simp [implementing, hfind, hinterface, hmarked]

/-- A look-up fails for an undeclared name and for a declared one that is no extension point. -/
theorem implementing_eq_error_iff {fault : Fault} :
    r.implementing c name = .error fault ↔
      (c.find? name = none ∧ fault = ⟨.unresolvedType, [name, "find_by_interface"]⟩) ∨
        ((∃ decl, c.find? name = some decl) ∧ ¬c.IsExtensionPoint name ∧
          fault = ⟨.notAnExtensionPoint, [name]⟩) := by
  constructor
  · intro h
    cases hfind : c.find? name with
    | none =>
      rw [implementing_of_none hfind] at h
      exact .inl ⟨rfl, (Except.error.inj h).symm⟩
    | some decl =>
      by_cases hpoint : c.IsExtensionPoint name
      · rw [implementing_of_isExtensionPoint hpoint] at h
        cases h
      · rw [implementing_of_not_isExtensionPoint hfind hpoint] at h
        exact .inr ⟨⟨decl, rfl⟩, hpoint, (Except.error.inj h).symm⟩
  · rintro (⟨hnone, rfl⟩ | ⟨⟨decl, hfind⟩, hpoint, rfl⟩)
    · exact implementing_of_none hnone
    · exact implementing_of_not_isExtensionPoint hfind hpoint

variable {found : List Plugin}

/-- What a look-up finds is registered and inherits from the extension point, and all that does is
found. -/
theorem mem_implementing_iff (hpoint : c.IsExtensionPoint name)
    (h : r.implementing c name = .ok found) {plugin : Plugin} :
    plugin ∈ found ↔ r.get? plugin.name = some plugin ∧ c.Inherits plugin.owner name := by
  rw [implementing_of_isExtensionPoint hpoint] at h
  rw [← Except.ok.inj h, List.mem_filter, Catalog.any_extensionPoints_iff, mem_toList_iff]
  exact and_congr_right fun _ => and_iff_right hpoint

theorem pairwise_names_implementing (hpoint : c.IsExtensionPoint name)
    (h : r.implementing c name = .ok found) : (found.map (·.name)).Pairwise (· < ·) := by
  rw [implementing_of_isExtensionPoint hpoint] at h
  rw [← Except.ok.inj h]
  exact (pairwise_names_toList r).sublist (List.filter_sublist.map _)

end Registry

/-! ## Published implementations -/

namespace Registries.Sound

variable {c : Catalog} {registries : Registries} {plugin : Plugin}

/-- A published implementation inherits from the extension points that it reaches: its type is a
class and so none of them. -/
theorem inherits_iff_reaches (hsound : registries.Sound c) {key name : String}
    (hplugin : registries.implementations.get? key = some plugin)
    (hpoint : c.IsExtensionPoint name) :
    c.Inherits plugin.owner name ↔ Catalog.Reaches c.InheritsFrom plugin.owner.name name := by
  have hdeclared := (hsound.owned .implementations key plugin hplugin).declared
  have hconcrete := (hsound.implementations key plugin hplugin).1
  have hne : name ≠ plugin.owner.name := by
    rintro rfl
    obtain ⟨decl, hfind, hinterface, -⟩ := hpoint
    rw [hdeclared] at hfind
    have hsame : plugin.owner = decl := Option.some.inj hfind
    subst hsame
    simp only [TypeDecl.isInterface, TypeDecl.isConcreteClass, beq_iff_eq] at hinterface hconcrete
    rw [hinterface] at hconcrete
    cases hconcrete
  rw [Catalog.inherits_iff_reaches hdeclared]
  exact and_iff_right hne

end Registries.Sound

namespace Loader

open Catalog (Reaches)

variable {l : Loader}

/-- Under each extension point a look-up finds the published implementations that reach it. -/
theorem implementing_of_sound (hsound : l.published.Sound l.catalog) {name : String}
    (hpoint : l.catalog.IsExtensionPoint name) :
    ∃ found, l.implementing name = .ok found ∧ (found.map (·.name)).Pairwise (· < ·) ∧
      ∀ plugin, plugin ∈ found ↔
        l.published.implementations.get? plugin.name = some plugin ∧
          Reaches l.catalog.InheritsFrom plugin.owner.name name := by
  have hfound : l.implementing name = .ok _ := Registry.implementing_of_isExtensionPoint hpoint
  refine ⟨_, hfound, Registry.pairwise_names_implementing hpoint hfound, fun plugin => ?_⟩
  rw [Registry.mem_implementing_iff hpoint hfound]
  exact and_congr_right fun hplugin => hsound.inherits_iff_reaches hplugin hpoint

/-- Every published implementation is found under some extension point: the load that published it
has checked that there is one. -/
theorem exists_implementing_of_sound (hsound : l.published.Sound l.catalog) {plugin : Plugin}
    (hplugin : l.published.implementations.get? plugin.name = some plugin) :
    ∃ name found, l.catalog.IsExtensionPoint name ∧ l.implementing name = .ok found ∧
      plugin ∈ found := by
  have hpoints := (hsound.implementations plugin.name plugin hplugin).2
  obtain ⟨name, hpoint, hinherits⟩ := Catalog.extensionPoints_ne_nil_iff.1 hpoints
  have hfound : l.implementing name = .ok _ := Registry.implementing_of_isExtensionPoint hpoint
  have hmem := (Registry.mem_implementing_iff hpoint hfound).2 ⟨hplugin, hinherits⟩
  exact ⟨name, _, hpoint, hfound, hmem⟩

/-- After every session a look-up fails exactly for names that are not declared and for declared
names that are no extension points, each with its own fault. Under an extension point it finds the
published implementations whose types reach it by inheritance, each once and in increasing order of
their names. All extension points together lead to all published implementations. -/
theorem look_up_by_inheritance (catalog : Catalog) (searchPath : List ModuleRoot)
    (settings : Settings) (ops : List Operation) :
    let l := ((start catalog searchPath settings).run ops).1
    (∀ name fault, l.implementing name = .error fault ↔
      (catalog.find? name = none ∧ fault = ⟨.unresolvedType, [name, "find_by_interface"]⟩) ∨
        ((∃ decl, catalog.find? name = some decl) ∧ ¬catalog.IsExtensionPoint name ∧
          fault = ⟨.notAnExtensionPoint, [name]⟩)) ∧
      (∀ name, catalog.IsExtensionPoint name →
        ∃ found, l.implementing name = .ok found ∧ (found.map (·.name)).Pairwise (· < ·) ∧
          ∀ plugin, plugin ∈ found ↔
            l.published.implementations.get? plugin.name = some plugin ∧
              Reaches catalog.InheritsFrom plugin.owner.name name) ∧
      ∀ plugin, l.published.implementations.get? plugin.name = some plugin ↔
        ∃ name found, catalog.IsExtensionPoint name ∧ l.implementing name = .ok found ∧
          plugin ∈ found := by
  intro l
  have hcatalog : l.catalog = catalog := congrArg Discovery.catalog (discovery_run _ ops)
  have hsound : l.published.Sound l.catalog := by
    rw [hcatalog]
    exact sound_run catalog searchPath settings ops
  rw [← hcatalog]
  refine ⟨fun name fault => Registry.implementing_eq_error_iff,
    fun name hpoint => implementing_of_sound hsound hpoint, fun plugin => ⟨?_, ?_⟩⟩
  · intro hplugin
    exact exists_implementing_of_sound hsound hplugin
  · rintro ⟨name, found, hpoint, hfound, hmem⟩
    exact ((Registry.mem_implementing_iff hpoint hfound).1 hmem).1

/-! ## Extension points that extend others -/

/-- What is found under an extension point is found under every extension point among its
ancestors. -/
theorem implementing_of_mem_ancestors (hsound : l.published.Sound l.catalog)
    {narrow wide : TypeDecl} (hnarrow : l.catalog.find? narrow.name = some narrow)
    (hpoint : l.catalog.IsExtensionPoint narrow.name) (hmarked : wide.isMarked = true)
    (hwide : wide ∈ l.catalog.ancestors narrow) :
    ∃ found all, l.implementing narrow.name = .ok found ∧ l.implementing wide.name = .ok all ∧
      ∀ plugin ∈ found, plugin ∈ all := by
  obtain ⟨hfind, hinterface, -⟩ := Catalog.mem_ancestors_iff.1 hwide
  have hpoint' : l.catalog.IsExtensionPoint wide.name := ⟨wide, hfind, hinterface, hmarked⟩
  obtain ⟨found, hfound, -, hmem⟩ := implementing_of_sound hsound hpoint
  obtain ⟨all, hall, -, hmem'⟩ := implementing_of_sound hsound hpoint'
  refine ⟨found, all, hfound, hall, fun plugin hplugin => ?_⟩
  obtain ⟨hpublished, hreaches⟩ := (hmem plugin).1 hplugin
  have hfarther := Catalog.reaches_of_mem_ancestors hnarrow hwide
  exact (hmem' plugin).2 ⟨hpublished, hreaches.trans hfarther⟩

/-- A declared type has the ancestors of its superclass and of its own ancestors, except itself.
Hence after every session what is found under one marked interface is found under every marked
interface that it extends, directly or through others. -/
theorem look_up_through_ancestors (catalog : Catalog) (searchPath : List ModuleRoot)
    (settings : Settings) (ops : List Operation) :
    let l := ((start catalog searchPath settings).run ops).1
    (∀ decl middle other, catalog.find? decl.name = some decl →
      catalog.find? middle.name = some middle →
        decl.superclass = some middle.name ∨ middle ∈ catalog.ancestors decl →
          other ∈ catalog.ancestors middle → other ≠ decl → other ∈ catalog.ancestors decl) ∧
      ∀ narrow wide, catalog.find? narrow.name = some narrow →
        narrow.isInterface = true → narrow.isMarked = true → wide.isMarked = true →
          wide ∈ catalog.ancestors narrow →
            ∃ found all, l.implementing narrow.name = .ok found ∧
              l.implementing wide.name = .ok all ∧ ∀ plugin ∈ found, plugin ∈ all := by
  intro l
  have hcatalog : l.catalog = catalog := congrArg Discovery.catalog (discovery_run _ ops)
  have hsound : l.published.Sound l.catalog := by
    rw [hcatalog]
    exact sound_run catalog searchPath settings ops
  constructor
  · intro decl middle other hdecl hmiddle hlink hother hne
    refine Catalog.mem_ancestors_of_reaches hdecl hmiddle ?_ hother hne
    rcases hlink with hsuper | hancestor
    · have hparent : middle.name ∈ decl.parents :=
        List.mem_append_left _ (Option.mem_toList.2 hsuper)
      exact (Reaches.refl decl.name).tail ⟨decl, hdecl, hparent⟩
    · exact Catalog.reaches_of_mem_ancestors hdecl hancestor
  · intro narrow wide hnarrow hinterface hmarked hmarked' hwide
    rw [← hcatalog] at hnarrow hwide
    have hpoint : l.catalog.IsExtensionPoint narrow.name := ⟨narrow, hnarrow, hinterface, hmarked⟩
    exact implementing_of_mem_ancestors hsound hnarrow hpoint hmarked' hwide

end Loader

end PluginDiscovery
