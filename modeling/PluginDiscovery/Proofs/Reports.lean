import Mathlib
import PluginDiscovery.Proofs.FaultOrder
import PluginDiscovery.Proofs.Session

/-!
# What a report holds

A report keeps every fault once, so it can hold fewer faults than the rules have listed. It does so
when two rules list the same fault. Rules with different codes never do, but both rules on names
report under one code, and their faults do not tell which side they are about. When several types
declare a name on both sides, the same types in the same order, two violations come to one fault.

`Coherence.size_declarations_violations` counts what is lost this way: a report holds one fault for
each violation, except for one violation for each name that is repeated alike on both sides. The
last section says which codes a report can have and which faults it can hold under each of them.
-/

namespace PluginDiscovery

namespace Coherence

variable {catalog : Catalog} {candidates : Candidates}

/-- The names that several implementations have and that the very same types, in the same order,
have among the extension points too. -/
def repeatedAlike (candidates : Candidates) : List String :=
  (candidates.implementations.map (·.name)).dedup.filter fun name =>
    1 < (ownersOf candidates.implementations name).length ∧
      ownersOf candidates.interfaces name = ownersOf candidates.implementations name

theorem mem_repeatedAlike_iff {name : String} :
    name ∈ repeatedAlike candidates ↔
      1 < (ownersOf candidates.implementations name).length ∧
        ownersOf candidates.interfaces name = ownersOf candidates.implementations name := by
  rw [repeatedAlike, List.mem_filter, List.mem_dedup, decide_eq_true_iff]
  refine and_iff_right_of_imp fun h => ?_
  by_contra hnot
  rw [ownersOf_eq_nil_iff.2 hnot] at h
  exact absurd h.1 (Nat.not_lt_zero 1)

namespace Rule

/-! ## Which faults coincide -/

/-- The faults of a rule that looks at single plugins are distinct, as their owners are. -/
theorem nodup_map_faultOf {plugins : List Plugin} (h : (plugins.map (·.owner.name)).Nodup)
    (code : FaultCode) (keep : Plugin → Bool) :
    ((plugins.filter keep).map (faultOf code)).Nodup := by
  refine (h.of_map.filter keep).map_on fun plugin hplugin other hother heq => ?_
  simp only [faultOf, Fault.mk.injEq, List.cons.injEq, true_and] at heq
  exact List.inj_on_of_nodup_map h (List.mem_of_mem_filter hplugin)
    (List.mem_of_mem_filter hother) heq.1

theorem nodup_violations (h : ∀ side, ((candidates.on side).map (·.owner.name)).Nodup)
    (rule : Rule) : (rule.violations catalog candidates).Nodup := by
  cases rule with
  | interfacesAreInterfaces => exact nodup_map_faultOf (h .interfaces) _ _
  | implementationsAreConcrete => exact nodup_map_faultOf (h .implementations) _ _
  | uniqueNames side => exact nodup_repeatedNames _
  | implementsExtensionPoint => exact nodup_map_faultOf (h .implementations) _ _

/-- The violations of a rule that no earlier rule of the standard ones has listed. -/
def newViolations (catalog : Catalog) (candidates : Candidates) : Rule → List Fault
  | uniqueNames .implementations =>
    (repeatedNames candidates.implementations).filter (· ∉ repeatedNames candidates.interfaces)
  | rule => rule.violations catalog candidates

theorem newViolations_sublist (catalog : Catalog) (candidates : Candidates) (rule : Rule) :
    (rule.newViolations catalog candidates).Sublist (rule.violations catalog candidates) := by
  cases rule with
  | uniqueNames side =>
    cases side with
    | interfaces => exact List.Sublist.refl _
    | implementations => exact List.filter_sublist
  | _ => exact List.Sublist.refl _

theorem disjoint_of_code_ne {rule other : Rule} (h : rule.code ≠ other.code) :
    List.Disjoint (rule.newViolations catalog candidates)
      (other.newViolations catalog candidates) := by
  intro fault hrule hother
  have hcode := code_of_mem_violations ((newViolations_sublist _ _ _).mem hrule)
  exact h (hcode.symm.trans (code_of_mem_violations ((newViolations_sublist _ _ _).mem hother)))

theorem disjoint_uniqueNames :
    List.Disjoint ((uniqueNames .interfaces).newViolations catalog candidates)
      ((uniqueNames .implementations).newViolations catalog candidates) := by
  intro fault hinterfaces himplementations
  exact of_decide_eq_true (List.mem_filter.1 himplementations).2 hinterfaces

/-- No violation is new to two rules. -/
theorem disjoint_newViolations {rule other : Rule} (h : rule ≠ other) :
    List.Disjoint (rule.newViolations catalog candidates)
      (other.newViolations catalog candidates) := by
  by_cases hcode : rule.code = other.code
  · -- only the two rules on names share their code
    have hsides : ∃ side side', rule = uniqueNames side ∧ other = uniqueNames side' := by
      cases rule <;> cases other <;> simp [code] at h hcode ⊢
    obtain ⟨side, side', rfl, rfl⟩ := hsides
    cases side <;> cases side'
    · exact absurd rfl h
    · exact disjoint_uniqueNames
    · exact disjoint_uniqueNames.symm
    · exact absurd rfl h
  · exact disjoint_of_code_ne hcode

end Rule

theorem nodup_newViolations (catalog : Catalog)
    (h : ∀ side, ((candidates.on side).map (·.owner.name)).Nodup) :
    (Rule.standard.flatMap (Rule.newViolations catalog candidates)).Nodup := by
  have hstandard : Rule.standard.Nodup := by decide
  refine List.nodup_flatMap.2 ⟨fun rule _ => ?_, ?_⟩
  · exact (Rule.nodup_violations h rule).sublist (Rule.newViolations_sublist _ _ rule)
  · exact hstandard.imp Rule.disjoint_newViolations

/-- What one rule passes over as not new, another one has listed. -/
theorem mem_newViolations_iff {fault : Fault} :
    fault ∈ Rule.standard.flatMap (Rule.newViolations catalog candidates) ↔
      fault ∈ violations catalog Rule.standard candidates := by
  unfold violations
  rw [List.mem_flatMap, List.mem_flatMap]
  constructor
  · rintro ⟨rule, hrule, hmem⟩
    exact ⟨rule, hrule, (Rule.newViolations_sublist _ _ rule).mem hmem⟩
  · rintro ⟨rule, -, hmem⟩
    by_cases hnew : fault ∈ rule.newViolations catalog candidates
    · exact ⟨rule, Rule.mem_standard rule, hnew⟩
    · refine ⟨.uniqueNames .interfaces, Rule.mem_standard _, ?_⟩
      cases rule with
      | uniqueNames side =>
        cases side with
        | interfaces => exact hmem
        | implementations =>
          by_contra hother
          exact hnew (List.mem_filter.2 ⟨hmem, decide_eq_true hother⟩)
      | _ => exact absurd hmem hnew

/-! ## Counting -/

/-- Among the violations of the rule on implementation names, those that the rule on extension point
names lists as well are as many as the names that are repeated alike. -/
theorem length_filter_repeatedNames (candidates : Candidates) :
    ((Rule.repeatedNames candidates.implementations).filter
      (· ∈ Rule.repeatedNames candidates.interfaces)).length =
        (repeatedAlike candidates).length := by
  have hperm : ((Rule.repeatedNames candidates.implementations).filter
      (· ∈ Rule.repeatedNames candidates.interfaces)).Perm
        ((repeatedAlike candidates).map fun name =>
          ⟨.nameNotUnique, name :: ownersOf candidates.implementations name⟩) := by
    refine (List.perm_ext_iff_of_nodup ((Rule.nodup_repeatedNames _).filter _) ?_).2 fun fault => ?_
    · refine ((List.nodup_dedup _).filter _).map_on fun name _ other _ heq => ?_
      simp only [Fault.mk.injEq, List.cons.injEq, true_and] at heq
      exact heq.1
    · rw [List.mem_filter, decide_eq_true_iff, List.mem_map, Rule.mem_repeatedNames_iff,
        Rule.mem_repeatedNames_iff]
      constructor
      · rintro ⟨⟨name, hlength, rfl⟩, other, hother, heq⟩
        simp only [Fault.mk.injEq, List.cons.injEq, true_and] at heq
        obtain ⟨rfl, howners⟩ := heq
        exact ⟨name, mem_repeatedAlike_iff.2 ⟨hlength, howners.symm⟩, rfl⟩
      · rintro ⟨name, hname, rfl⟩
        obtain ⟨hlength, howners⟩ := mem_repeatedAlike_iff.1 hname
        exact ⟨⟨name, hlength, rfl⟩, name, howners ▸ hlength, by rw [howners]⟩
  rw [hperm.length_eq, List.length_map]

/-- Every violation is new or is one of those that are repeated alike. -/
theorem length_violations (catalog : Catalog) (candidates : Candidates) :
    (violations catalog Rule.standard candidates).length =
      (Rule.standard.flatMap (Rule.newViolations catalog candidates)).length +
        (repeatedAlike candidates).length := by
  have hsplit : (Rule.repeatedNames candidates.implementations).length = _ :=
    List.length_eq_length_filter_add (· ∈ Rule.repeatedNames candidates.interfaces)
  rw [length_filter_repeatedNames] at hsplit
  have hnew : (Rule.newViolations catalog candidates (.uniqueNames .implementations)).length =
      ((Rule.repeatedNames candidates.implementations).filter
        fun fault => !decide (fault ∈ Rule.repeatedNames candidates.interfaces)).length := by
    simp only [Rule.newViolations, decide_not]
  simp only [violations, Rule.standard, List.flatMap_cons, List.flatMap_nil, List.length_append,
    List.length_nil, hnew]
  simp only [Rule.newViolations, Rule.violations, Candidates.on, hsplit]
  omega

/-- A report and the names that are repeated alike account for all violations. -/
theorem size_declarations_violations
    (h : ∀ side, ((candidates.on side).map (·.owner.name)).Nodup) :
    (FaultReport.declarations (violations catalog Rule.standard candidates)).size +
      (repeatedAlike candidates).length =
        (violations catalog Rule.standard candidates).length := by
  have hsize := FaultReport.size_declarations (nodup_newViolations catalog h) fun _ =>
    mem_newViolations_iff
  rw [hsize, length_violations]

end Coherence

namespace Loader

open Coherence

/-- When both passes succeed and the check fails, a reload reports one fault for each violation,
but for the violations of the rule on implementation names that are about the same name and the same
owners as one of the rule on extension point names. Of these two the report keeps only one. So it is
complete exactly when no name is repeated alike on both sides. -/
theorem size_of_incoherent_reload (l : Loader) (files : Files) {interfaces implementations : Pass}
    {report : FaultReport}
    (hinterfaces : (l.discovery.pass files .interfaces).outcome = .ok interfaces)
    (himplementations : (l.discovery.pass files .implementations).outcome = .ok implementations)
    (hcheck : (l.discovery.check ⟨interfaces.plugins, implementations.plugins⟩).outcome =
      .error report) :
    let candidates : Candidates := ⟨interfaces.plugins, implementations.plugins⟩
    let found := violations l.catalog Rule.standard candidates
    (l.reload files).2.outcome = .error report ∧
      report.size + (repeatedAlike candidates).length = found.length ∧
      (report.size = found.length ↔
        ∀ name, 1 < (ownersOf candidates.implementations name).length →
          ownersOf candidates.interfaces name ≠ ownersOf candidates.implementations name) := by
  intro candidates found
  have hreport : report = .declarations found := report_of_outcome_check hcheck
  have howners : ∀ side, ((candidates.on side).map (·.owner.name)).Nodup := fun side => by
    cases side with
    | interfaces => exact l.discovery.nodup_owner_names hinterfaces
    | implementations => exact l.discovery.nodup_owner_names himplementations
  have hsize : report.size + (repeatedAlike candidates).length = found.length := by
    rw [hreport]
    exact size_declarations_violations howners
  have hreload : (l.reload files).2.outcome = .error report := by
    rw [outcome_reload, dryRun, Discovery.outcome_survey_of_passes hinterfaces himplementations,
      hcheck]
    rfl
  refine ⟨hreload, hsize, ?_⟩
  have hnone : report.size = found.length ↔ repeatedAlike candidates = [] := by
    rw [← hsize, ← List.length_eq_zero_iff]
    omega
  rw [hnone, List.eq_nil_iff_forall_not_mem]
  exact forall_congr' fun name => by rw [mem_repeatedAlike_iff, not_and]

/-- A class that implements the extension point of `twins` under the name `twin`. -/
def twin (name : String) : TypeDecl where
  name := name
  kind := .concreteClass
  interfaces := ["acme.I"]
  marker := some { name := "twin" }

/-- A loader that finds two classes of one name in both manifests. -/
def twins : Loader where
  catalog := .ofList [twin "acme.A", twin "acme.B",
    { name := "acme.I", kind := .interface, marker := some { name := "i" } }]
  searchPath := [.embedded "e" (.ofList
    [("interfaces", "acme.A\nacme.B\n"), ("implementations", "acme.A\nacme.B\n")])]
  settings := ⟨"interfaces", "implementations", "spindle."⟩

/-- What either pass of `twins` finds. -/
def twinPlugins : List Plugin :=
  ["acme.A", "acme.B"].map fun name => .ofMarker (twin name) { name := "twin" } false

/-- The rules list four violations, two of them classes that should be interfaces and two of them
repeated names, but the report holds three faults. -/
theorem size_of_reload_twins :
    ∃ report, (twins.reload {}).2.outcome = .error report ∧ report.size = 3 ∧
      (violations twins.catalog Rule.standard ⟨twinPlugins, twinPlugins⟩).length = 4 := by
  have hlength :
      (violations twins.catalog Rule.standard ⟨twinPlugins, twinPlugins⟩).length = 4 := by cbv
  have hbroken : ¬∀ rule ∈ Rule.standard,
      rule.Holds twins.catalog ⟨twinPlugins, twinPlugins⟩ := fun hholds => by
    rw [violations_eq_nil_iff.2 hholds] at hlength
    cases hlength
  have hinterfaces : (twins.discovery.pass {} .interfaces).outcome = .ok ⟨twinPlugins, []⟩ := by
    cbv
  have himplementations :
      (twins.discovery.pass {} .implementations).outcome = .ok ⟨twinPlugins, []⟩ := by cbv
  have halike : (repeatedAlike ⟨twinPlugins, twinPlugins⟩).length = 1 := by cbv
  obtain ⟨hreload, hsize, -⟩ := size_of_incoherent_reload twins {} hinterfaces himplementations
    (outcome_check_of_not_holds hbroken)
  rw [halike, hlength] at hsize
  exact ⟨_, hreload, Nat.succ.inj hsize, hlength⟩

/-! ## What a report can say -/

/-- A report is about one fault that ended the load, or about declarations that contradict each
other; in either case it says what. -/
theorem faults_of_verdict {d : Discovery} {files : Files} {report : FaultReport}
    (h : d.Verdict files (.error report)) :
    (∃ fault, report = .fatal fault ∧ fault.code ∈ [.unreadableManifest, .unresolvedType]) ∨
      (report.code = .incoherentDeclarations ∧ report.faults ≠ [] ∧
        ∀ fault ∈ report.faults, fault.code ∈
          [.notAnInterface, .notAConcreteClass, .nameNotUnique, .noExtensionPoint]) := by
  cases h with
  | unreadable side hside hpath hbefore hroot => exact .inl ⟨_, rfl, List.mem_cons_self⟩
  | unresolved side hside hread hlistings hbefore hrefused hlink =>
    exact .inl ⟨_, rfl, List.mem_cons_of_mem _ List.mem_cons_self⟩
  | incoherent hclear hbroken =>
    refine .inr ⟨rfl, fun hnil => hbroken ?_, fun fault hfault => ?_⟩
    · refine violations_eq_nil_iff.1 (List.eq_nil_iff_forall_not_mem.2 fun fault hfault => ?_)
      have hmem : fault ∈ (FaultReport.declarations _).faults := FaultReport.mem_collect.2 hfault
      rw [hnil] at hmem
      exact List.not_mem_nil hmem
    · obtain ⟨rule, -, hmem⟩ := List.mem_flatMap.1 (FaultReport.mem_collect.1 hfault)
      exact Rule.code_of_mem_violations hmem ▸ rule.code_mem

/-- Every load ends as the first stage decides that fails. It succeeds exactly when all fragments
can be read, all extension points link, all implementations are declared and what is found keeps all
rules. A report holds one fault that ended the load, under the code of that fault, or all
contradictions among the declarations; an implementation that is skipped is never among its faults.
Reloads end as dry runs do. -/
theorem first_failing_stage_decides (l : Loader) (files : Files) :
    (∀ outcome, (l.dryRun files).outcome = outcome ↔ l.discovery.Verdict files outcome) ∧
      ((∃ survey, (l.dryRun files).outcome = .ok survey) ↔
        (∀ side, ∀ root ∈ l.searchPath,
          Manifest.Readable files (l.settings.manifest side) root) ∧
        (∀ listing ∈ l.discovery.listings files .interfaces,
          ∃ decl, l.catalog.link listing.typeName = .ok decl) ∧
        (∀ listing ∈ l.discovery.listings files .implementations,
          ∃ decl, l.catalog.find? listing.typeName = some decl) ∧
        ∀ rule ∈ Rule.standard, rule.Holds l.catalog (l.discovery.candidates files)) ∧
      (∀ report, (l.dryRun files).outcome = .error report →
        ((∃ fault, report.faults = [fault] ∧ report.code = fault.code ∧
            fault.code ∈ [.unreadableManifest, .unresolvedType]) ∨
          (report.code = .incoherentDeclarations ∧ report.faults ≠ [] ∧
            ∀ fault ∈ report.faults, fault.code ∈
              [.notAnInterface, .notAConcreteClass, .nameNotUnique, .noExtensionPoint])) ∧
        ∀ fault ∈ report.faults, fault.code ≠ .missingDependency) ∧
      (l.reload files).2.outcome =
        (l.dryRun files).outcome.map (reportOf (l.generation + 1)) := by
  refine ⟨fun outcome => Discovery.outcome_survey_eq_iff, ?_, fun report h => ?_,
    outcome_reload l files⟩
  · constructor
    · rintro ⟨survey, h⟩
      obtain ⟨hclear, hholds, -⟩ := Discovery.outcome_survey_eq_ok_iff.1 h
      exact ⟨fun side => (hclear side).readable, (hclear .interfaces).admitted,
        (hclear .implementations).admitted, hholds⟩
    · rintro ⟨hread, hinterfaces, himplementations, hholds⟩
      have hclear : ∀ side, l.discovery.Clear files side := fun side => by
        cases side with
        | interfaces => exact ⟨hread _, hinterfaces⟩
        | implementations => exact ⟨hread _, himplementations⟩
      exact ⟨_, Discovery.outcome_survey_eq_ok_iff.2 ⟨hclear, hholds, rfl⟩⟩
  · rcases faults_of_verdict (Discovery.outcome_survey_eq_iff.1 h) with
      ⟨fault, rfl, hcode⟩ | ⟨hcode, hne, hfaults⟩
    · refine ⟨.inl ⟨fault, rfl, rfl, hcode⟩, fun other hother hmissing => ?_⟩
      rw [← List.mem_singleton.1 hother, hmissing] at hcode
      exact absurd hcode (by decide)
    · refine ⟨.inr ⟨hcode, hne, hfaults⟩, fun fault hfault hmissing => ?_⟩
      have hmem := hfaults fault hfault
      rw [hmissing] at hmem
      exact absurd hmem (by decide)

end Loader

end PluginDiscovery
