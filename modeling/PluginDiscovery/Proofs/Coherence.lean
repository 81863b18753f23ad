import Mathlib.Data.List.Induction
import Mathlib.Data.List.Nodup
import PluginDiscovery.Coherence

/-!
# The rules of coherence

What it takes to keep a rule, and what a rule reports when it is broken. The rules on kinds and on
extension points look at one plugin at a time. The rule on names groups plugins by name first; the
map of owners that it builds is pinned by `find?_owners`: under each name it lists the types that
declare the name, all of them and in the order of the plugins.

The main statements are `violations_eq_nil_iff`, which says when candidates pass, and
`repeatedNames_eq`, which lists the faults of the rule on names.
-/

namespace PluginDiscovery.Coherence

/-- The types that declare a name, in the order of the plugins. -/
def ownersOf (plugins : List Plugin) (name : String) : List String :=
  (plugins.filter (·.name = name)).map (·.owner.name)

theorem ownersOf_concat (plugins : List Plugin) (plugin : Plugin) (name : String) :
    ownersOf (plugins ++ [plugin]) name =
      ownersOf plugins name ++ if plugin.name = name then [plugin.owner.name] else [] := by
  by_cases h : plugin.name = name <;> simp [ownersOf, List.filter_append, h]

theorem ownersOf_eq_nil_iff {plugins : List Plugin} {name : String} :
    ownersOf plugins name = [] ↔ name ∉ plugins.map (·.name) := by
  simp [ownersOf, List.filter_eq_nil_iff]

theorem length_ownersOf (plugins : List Plugin) (name : String) :
    (ownersOf plugins name).length = (plugins.map (·.name)).count name := by
  rw [ownersOf, List.length_map, ← List.countP_eq_length_filter, List.count, List.countP_map]
  exact List.countP_congr fun plugin _ => by simp

/-- Names are distinct when no name has two owners. -/
theorem nodup_names_iff {plugins : List Plugin} :
    (plugins.map (·.name)).Nodup ↔ ∀ name, (ownersOf plugins name).length ≤ 1 := by
  rw [List.nodup_iff_count_le_one]
  simp only [length_ownersOf]

namespace Rule

/-- No rule is left out of a standard check. -/
theorem mem_standard (rule : Rule) : rule ∈ standard := by
  cases rule with
  | uniqueNames side => cases side <;> decide
  | _ => decide

/-! ## Repeated names -/

/-- The owners of a name are gathered completely and in order. -/
theorem find?_owners (plugins : List Plugin) (name : String) :
    (owners plugins).find? name =
      if ownersOf plugins name = [] then none else some (ownersOf plugins name) := by
  induction plugins using List.reverseRecOn with
  | nil => simp [owners, ownersOf, EmptyCollection.emptyCollection]
  | append_singleton plugins plugin ih =>
    have hstep : owners (plugins ++ [plugin]) = (owners plugins).insert plugin.name
        (((owners plugins).find? plugin.name).getD [] ++ [plugin.owner.name]) := by
      simp [owners, List.foldl_append]
    rw [hstep, NameMap.find?_insert, ownersOf_concat]
    by_cases hname : name = plugin.name
    · subst hname
      rw [ih]
      by_cases hnil : ownersOf plugins plugin.name = [] <;> simp [hnil]
    · rw [if_neg hname, if_neg (Ne.symm hname), List.append_nil]
      exact ih

theorem mem_names_owners {plugins : List Plugin} {name : String} :
    name ∈ (owners plugins).names ↔ name ∈ plugins.map (·.name) := by
  rw [NameMap.mem_names_iff, find?_owners]
  by_cases h : ownersOf plugins name = []
  · simpa [h] using ownersOf_eq_nil_iff.1 h
  · simpa [h] using mt ownersOf_eq_nil_iff.2 h

theorem entries_owners (plugins : List Plugin) :
    (owners plugins).entries =
      (owners plugins).names.map fun name => (name, ownersOf plugins name) := by
  rw [NameMap.names, List.map_map]
  refine (List.map_id _).symm.trans (List.map_congr_left fun entry hentry => ?_)
  have hfind := (NameMap.mem_entries_iff _).1 hentry
  rw [find?_owners] at hfind
  split at hfind
  · cases hfind
  · obtain ⟨name, types⟩ := entry
    simpa using (Option.some.inj hfind).symm

/-- One fault for each name with several owners, in increasing order of the names. Its arguments are
the name and then all its owners. -/
theorem repeatedNames_eq (plugins : List Plugin) :
    repeatedNames plugins =
      ((owners plugins).names.filter fun name => 1 < (ownersOf plugins name).length).map
        fun name => ⟨.nameNotUnique, name :: ownersOf plugins name⟩ := by
  unfold repeatedNames
  rw [entries_owners, List.filterMap_map]
  generalize (owners plugins).names = names
  induction names with
  | nil => rfl
  | cons name names ih =>
    by_cases h : 1 < (ownersOf plugins name).length
    · simpa [List.filterMap_cons, h] using ih
    · simpa [List.filterMap_cons, h] using ih

theorem mem_repeatedNames_iff {plugins : List Plugin} {fault : Fault} :
    fault ∈ repeatedNames plugins ↔
      ∃ name, 1 < (ownersOf plugins name).length ∧
        fault = ⟨.nameNotUnique, name :: ownersOf plugins name⟩ := by
  rw [repeatedNames_eq, List.mem_map]
  constructor
  · rintro ⟨name, hname, rfl⟩
    exact ⟨name, of_decide_eq_true (List.mem_filter.1 hname).2, rfl⟩
  · rintro ⟨name, hlength, rfl⟩
    have hmem : name ∈ plugins.map (·.name) := by
      by_contra hnot
      rw [ownersOf_eq_nil_iff.2 hnot] at hlength
      simp at hlength
    exact ⟨name, List.mem_filter.2 ⟨mem_names_owners.2 hmem, decide_eq_true hlength⟩, rfl⟩

/-- No fault of repeated names occurs twice: each has its own name as first argument. -/
theorem nodup_repeatedNames (plugins : List Plugin) : (repeatedNames plugins).Nodup := by
  rw [repeatedNames_eq]
  refine List.Nodup.map_on (fun name _ other _ heq => ?_) ((NameMap.names_nodup _).filter _)
  simp only [Fault.mk.injEq, true_and] at heq
  exact (List.cons.inj heq).1

/-- The faults of repeated names are listed in the order in which a report keeps them. -/
theorem increasing_repeatedNames (plugins : List Plugin) :
    Fault.Increasing (repeatedNames plugins) := by
  rw [repeatedNames_eq]
  refine List.Pairwise.map _ (fun name other hlt => ?_) ((NameMap.names_pairwise _).filter _)
  simp [Fault.before, Fault.argsBefore, hlt]

theorem repeatedNames_eq_nil_iff {plugins : List Plugin} :
    repeatedNames plugins = [] ↔ (plugins.map (·.name)).Nodup := by
  rw [nodup_names_iff, List.eq_nil_iff_forall_not_mem]
  constructor
  · intro h name
    by_contra hlength
    exact h _ (mem_repeatedNames_iff.2 ⟨name, by omega, rfl⟩)
  · rintro h fault hfault
    obtain ⟨name, hlength, -⟩ := mem_repeatedNames_iff.1 hfault
    have := h name
    omega

/-! ## Keeping a rule -/

/-- Candidates keep a rule. -/
def Holds (catalog : Catalog) (candidates : Candidates) : Rule → Prop
  | interfacesAreInterfaces => ∀ plugin ∈ candidates.interfaces, plugin.owner.isInterface
  | implementationsAreConcrete =>
    ∀ plugin ∈ candidates.implementations, plugin.owner.isConcreteClass
  | uniqueNames side => ((candidates.on side).map (·.name)).Nodup
  | implementsExtensionPoint =>
    ∀ plugin ∈ candidates.implementations, catalog.extensionPoints plugin.owner ≠ []

/-- A rule lists no violation exactly when it is kept. -/
theorem violations_eq_nil_iff {catalog : Catalog} {candidates : Candidates} {rule : Rule} :
    rule.violations catalog candidates = [] ↔ rule.Holds catalog candidates := by
  cases rule with
  | interfacesAreInterfaces => simp [violations, Holds, List.filter_eq_nil_iff]
  | implementationsAreConcrete => simp [violations, Holds, List.filter_eq_nil_iff]
  | uniqueNames side => exact repeatedNames_eq_nil_iff
  | implementsExtensionPoint => simp [violations, Holds, List.filter_eq_nil_iff]

/-- The code of the faults of a rule. -/
def code : Rule → FaultCode
  | interfacesAreInterfaces => .notAnInterface
  | implementationsAreConcrete => .notAConcreteClass
  | uniqueNames _ => .nameNotUnique
  | implementsExtensionPoint => .noExtensionPoint

theorem code_mem (rule : Rule) :
    rule.code ∈ [.notAnInterface, .notAConcreteClass, .nameNotUnique, .noExtensionPoint] := by
  cases rule <;> simp [code]

theorem code_of_mem_violations {catalog : Catalog} {candidates : Candidates} {rule : Rule}
    {fault : Fault} (h : fault ∈ rule.violations catalog candidates) : fault.code = rule.code := by
  cases rule with
  | uniqueNames side =>
    obtain ⟨name, -, rfl⟩ := mem_repeatedNames_iff.1 h
    rfl
  | _ =>
    obtain ⟨plugin, -, rfl⟩ := List.mem_map.1 h
    rfl

end Rule

/-! ## Keeping all rules -/

theorem violations_eq_nil_iff {catalog : Catalog} {rules : List Rule} {candidates : Candidates} :
    violations catalog rules candidates = [] ↔
      ∀ rule ∈ rules, rule.Holds catalog candidates := by
  simp [violations, List.flatMap_eq_nil_iff, Rule.violations_eq_nil_iff]

theorem outcome_check_of_holds {catalog : Catalog} {rules : List Rule} {candidates : Candidates}
    (h : ∀ rule ∈ rules, rule.Holds catalog candidates) :
    (check catalog rules candidates).outcome = .ok () := by
  simp [check, violations_eq_nil_iff.2 h]

theorem outcome_check_of_not_holds {catalog : Catalog} {rules : List Rule}
    {candidates : Candidates} (h : ¬∀ rule ∈ rules, rule.Holds catalog candidates) :
    (check catalog rules candidates).outcome =
      .error (.declarations (violations catalog rules candidates)) := by
  simp [check, mt violations_eq_nil_iff.1 h]

/-- A check that fails reports the violations of all rules. -/
theorem report_of_outcome_check {catalog : Catalog} {rules : List Rule} {candidates : Candidates}
    {report : FaultReport} (h : (check catalog rules candidates).outcome = .error report) :
    report = .declarations (violations catalog rules candidates) := by
  by_cases hholds : ∀ rule ∈ rules, rule.Holds catalog candidates
  · rw [outcome_check_of_holds hholds] at h
    cases h
  · rw [outcome_check_of_not_holds hholds] at h
    exact (Except.error.inj h).symm

end PluginDiscovery.Coherence
