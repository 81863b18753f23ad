import PluginDiscovery.Proofs.Published

/-!
# Dry runs

A dry run discovers just as a reload does. What it finds goes to the caller and not into the
registries, and its notes are not kept. So it foretells how a reload would end
(`dryRun_foretells_reload`), and it leaves no trace: a session goes on in the same way when all its
dry runs are left out (`run_without_dryRuns`). A reload always leaves its notes, even when it fails.
-/

namespace PluginDiscovery

/-- Whether an operation is a dry run. -/
def Operation.isDryRun : Operation → Bool
  | dryRun _ => true
  | _ => false

/-- Whether an answer is that of a dry run. -/
def Answer.isSurvey : Answer → Bool
  | surveyed _ => true
  | _ => false

namespace Loader

variable {l : Loader}

theorem isSurvey_step (l : Loader) (op : Operation) : (l.step op).2.isSurvey = op.isDryRun := by
  cases op <;> rfl

theorem step_of_isDryRun {op : Operation} (h : op.isDryRun = true) : (l.step op).1 = l := by
  cases op with
  | dryRun files => rfl
  | _ => cases h

/-- Without its dry runs a session ends in the same state, and all other operations answer alike. -/
theorem run_without_dryRuns (l : Loader) (ops : List Operation) :
    l.run (ops.filter (!·.isDryRun)) = ((l.run ops).1, (l.run ops).2.filter (!·.isSurvey)) := by
  induction ops generalizing l with
  | nil => rfl
  | cons op ops ih =>
    have hanswer := isSurvey_step l op
    have hrest := ih (l.step op).1
    conv_rhs => rw [run]
    rw [List.filter_cons, List.filter_cons, hanswer]
    cases hop : op.isDryRun with
    | true =>
      -- the operation is left out, and its step has not moved the loader
      rw [step_of_isDryRun hop] at hrest ⊢
      exact hrest
    | false =>
      simp only [Bool.not_false, if_true]
      rw [run, hrest]

/-- A dry run sees where a loader looks, and nothing of what the loader has done. -/
theorem dryRun_run (l : Loader) (ops : List Operation) :
    (l.run ops).1.dryRun = l.dryRun := by
  funext files
  rw [dryRun, dryRun, discovery_run]

/-- In every state of a session a dry run ends like a reload from the same files: it fails if the
reload does, with the same report; and if it succeeds, then the reload reports as many plugins as it
has found and the same skipped implementations, and publishes exactly the plugins that it has found,
each under its name. The dry run itself changes nothing, and the session would have come to the same
state without dry runs. A reload replaces the notes by those of this attempt, whatever has been
noted before; if it fails, it changes nothing else. -/
theorem dryRun_foretells_reload (catalog : Catalog) (searchPath : List ModuleRoot)
    (settings : Settings) (ops : List Operation) (files : Files) :
    let l := ((start catalog searchPath settings).run ops).1
    (∀ report, (l.dryRun files).outcome = .error report ↔
        (l.reload files).2.outcome = .error report) ∧
      (∀ survey, (l.dryRun files).outcome = .ok survey →
        ∃ report, (l.reload files).2.outcome = .ok report ∧
          report.skipped = survey.skipped ∧
          (l.reload files).1.generation = l.generation + 1 ∧
          ∀ side, report.count side = (survey.on side).length ∧
            ((l.reload files).1.published.on side).size = (survey.on side).length ∧
            ∀ name plugin, ((l.reload files).1.published.on side).get? name = some plugin ↔
              plugin ∈ survey.on side ∧ plugin.name = name) ∧
      (l.step (.dryRun files)).1 = l ∧
      ((start catalog searchPath settings).run (ops.filter (!·.isDryRun))).1 = l ∧
      (l.reload files).1.notes =
        .ofEvents ((start catalog searchPath settings).dryRun files).events ∧
      ∀ report, (l.reload files).2.outcome = .error report →
        (l.reload files).1 = { l with notes := (l.reload files).1.notes } := by
  intro l
  refine ⟨fun report => ⟨fun h => (reload_of_error h).2, dryRun_of_reload_error⟩,
    fun survey hsurvey => ?_, rfl, ?_, ?_, fun report hreport => ?_⟩
  · obtain ⟨hloader, hreport⟩ := reload_of_ok hsurvey
    refine ⟨_, hreport, rfl, ?_, fun side => ⟨count_reportOf _ _ side, ?_, ?_⟩⟩
    · rw [hloader]
      rfl
    · rw [hloader]
      exact size_of_dryRun hsurvey _ side
    · rw [hloader]
      exact get?_of_dryRun hsurvey _ side
  · rw [run_without_dryRuns]
  · rw [notes_reload, dryRun_run]
  · rw [(reload_of_error (dryRun_of_reload_error hreport)).1]

end Loader

end PluginDiscovery
