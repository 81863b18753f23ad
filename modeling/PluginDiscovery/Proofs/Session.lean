import PluginDiscovery.Proofs.Registry
import PluginDiscovery.Proofs.Verdict

/-!
# Sessions

A session is a sequence of operations on one loader: reloads, dry runs, look-ups and reads. Each
load sees the files as they are when it runs, so a session says nothing about how the manifests
change in between.

Only a reload that succeeds changes what is published. What a single operation does is told by
`reload_of_ok` and `reload_of_error`; the statements about whole sessions follow by
induction on the operations.
-/

namespace PluginDiscovery

/-- What can be done with a loader. -/
inductive Operation where
  /-- Reload from the files as they are now. -/
  | reload (files : Files)
  /-- Discover from the files as they are now, without publishing anything. -/
  | dryRun (files : Files)
  /-- Look up the implementations of an extension point. -/
  | find (name : String)
  /-- Read the registry of one side. -/
  | read (side : Side)
  /-- Take both registries at once. -/
  | snapshot

/-- What an operation answers. -/
inductive Answer where
  /-- The outcome of a reload. -/
  | reloaded (outcome : Except FaultReport LoadReport)
  /-- The outcome of a dry run. -/
  | surveyed (outcome : Except FaultReport Survey)
  /-- The implementations of an extension point. -/
  | found (result : Except Fault (List Plugin))
  /-- The registry of one side. -/
  | registry (registry : Registry)
  /-- Both registries. -/
  | registries (registries : Registries)

/-- The answer is that of a reload that succeeded. -/
def Answer.isLoad : Answer → Bool
  | reloaded (.ok _) => true
  | _ => false

/-- What a survey finds on one side. -/
def Survey.on (survey : Survey) : Side → List Plugin
  | .interfaces => survey.interfaces
  | .implementations => survey.implementations

/-- How much a load has found on one side. -/
def LoadReport.count (report : LoadReport) : Side → Nat
  | .interfaces => report.interfaces
  | .implementations => report.implementations

namespace Loader

/-- The loader that has not loaded anything yet. -/
def start (catalog : Catalog) (searchPath : List ModuleRoot) (settings : Settings) : Loader :=
  { catalog, searchPath, settings }

/-- Does one thing with a loader. -/
def step (l : Loader) : Operation → Loader × Answer
  | .reload files => ((l.reload files).1, .reloaded (l.reload files).2.outcome)
  | .dryRun files => (l, .surveyed (l.dryRun files).outcome)
  | .find name => (l, .found (l.implementing name))
  | .read side => (l, .registry (l.published.on side))
  | .snapshot => (l, .registries l.published)

/-- Does one thing after the other and gathers the answers. -/
def run (l : Loader) : List Operation → Loader × List Answer
  | [] => (l, [])
  | op :: ops => (((l.step op).1.run ops).1, (l.step op).2 :: ((l.step op).1.run ops).2)

variable {l : Loader} {files : Files}

/-! ## One reload -/

/-- A reload that fails changes the notes and nothing else. -/
theorem reload_of_error {report : FaultReport} (h : (l.dryRun files).outcome = .error report) :
    (l.reload files).1 = { l with notes := .ofEvents (l.dryRun files).events } ∧
      (l.reload files).2.outcome = .error report := by
  simp [reload, h]

/-- A reload that succeeds publishes what it has found, under the next generation. -/
theorem reload_of_ok {survey : Survey} (h : (l.dryRun files).outcome = .ok survey) :
    (l.reload files).1 =
        { l with
          published := registriesOf (l.generation + 1) survey
          notes := .ofEvents (l.dryRun files).events } ∧
      (l.reload files).2.outcome = .ok (reportOf (l.generation + 1) survey) := by
  simp [reload, h]

theorem outcome_reload (l : Loader) (files : Files) :
    (l.reload files).2.outcome =
      (l.dryRun files).outcome.map (reportOf (l.generation + 1)) := by
  cases h : (l.dryRun files).outcome with
  | error report => rw [(reload_of_error h).2]; rfl
  | ok survey => rw [(reload_of_ok h).2]; rfl

/-- Every reload replaces the notes by those of its own attempt. -/
theorem notes_reload (l : Loader) (files : Files) :
    (l.reload files).1.notes = .ofEvents (l.dryRun files).events := by
  cases h : (l.dryRun files).outcome with
  | error report => rw [(reload_of_error h).1]
  | ok survey => rw [(reload_of_ok h).1]

theorem dryRun_of_reload_error {report : FaultReport}
    (h : (l.reload files).2.outcome = .error report) :
    (l.dryRun files).outcome = .error report := by
  rw [outcome_reload] at h
  cases hrun : (l.dryRun files).outcome with
  | error other =>
    rw [hrun] at h
    rw [Except.error.inj h]
  | ok survey =>
    rw [hrun] at h
    cases h

theorem dryRun_of_reload_ok {report : LoadReport} (h : (l.reload files).2.outcome = .ok report) :
    ∃ survey, (l.dryRun files).outcome = .ok survey ∧
      report = reportOf (l.generation + 1) survey := by
  rw [outcome_reload] at h
  cases hrun : (l.dryRun files).outcome with
  | error other =>
    rw [hrun] at h
    cases h
  | ok survey =>
    rw [hrun] at h
    exact ⟨survey, rfl, (Except.ok.inj h).symm⟩

theorem exists_reload_ok_iff :
    (∃ report, (l.reload files).2.outcome = .ok report) ↔
      ∃ survey, (l.dryRun files).outcome = .ok survey := by
  constructor
  · rintro ⟨report, hreport⟩
    obtain ⟨survey, hsurvey, -⟩ := dryRun_of_reload_ok hreport
    exact ⟨survey, hsurvey⟩
  · rintro ⟨survey, hsurvey⟩
    exact ⟨_, (reload_of_ok hsurvey).2⟩

/-! ## What a load publishes -/

theorem on_surveyResult (d : Discovery) (side : Side) :
    (d.surveyResult files).on side = (d.passResult files side).plugins := by
  cases side <;> rfl

theorem on_registriesOf (generation : Nat) (survey : Survey) (side : Side) :
    (registriesOf generation survey).on side = .ofPlugins (survey.on side) := by
  cases side <;> rfl

/-- The rules on names are among those that every load checks. -/
theorem nodup_names_of_dryRun {survey : Survey} (h : (l.dryRun files).outcome = .ok survey)
    (side : Side) : ((survey.on side).map (·.name)).Nodup := by
  obtain ⟨-, hholds, rfl⟩ := Discovery.outcome_survey_eq_ok_iff.1 h
  have hrule := hholds _ (Coherence.Rule.mem_standard (.uniqueNames side))
  cases side <;> exact hrule

theorem get?_of_dryRun {survey : Survey} (h : (l.dryRun files).outcome = .ok survey)
    (generation : Nat) (side : Side) (name : String) (plugin : Plugin) :
    ((registriesOf generation survey).on side).get? name = some plugin ↔
      plugin ∈ survey.on side ∧ plugin.name = name := by
  rw [on_registriesOf]
  exact Registry.get?_ofPlugins_eq_some_iff (nodup_names_of_dryRun h side)

/-! ## Steps -/

/-- No operation changes where a loader looks. -/
theorem discovery_step (l : Loader) (op : Operation) :
    (l.step op).1.discovery = l.discovery := by
  cases op with
  | reload files =>
    cases h : (l.dryRun files).outcome with
    | error report => rw [step, (reload_of_error h).1]; rfl
    | ok survey => rw [step, (reload_of_ok h).1]; rfl
  | _ => rfl

/-- The generation goes up by one with a reload that succeeds, and stays otherwise. -/
theorem generation_step (l : Loader) (op : Operation) :
    (l.step op).1.generation = l.generation + if (l.step op).2.isLoad then 1 else 0 := by
  cases op with
  | reload files =>
    cases h : (l.dryRun files).outcome with
    | error report =>
      rw [step, (reload_of_error h).1, (reload_of_error h).2]
      rfl
    | ok survey =>
      rw [step, (reload_of_ok h).1, (reload_of_ok h).2]
      rfl
  | _ => rfl

/-- What is published stays, unless a reload succeeds. -/
theorem published_step_of_not_isLoad {op : Operation} (h : (l.step op).2.isLoad = false) :
    (l.step op).1.published = l.published := by
  cases op with
  | reload files =>
    cases hrun : (l.dryRun files).outcome with
    | error report => rw [step, (reload_of_error hrun).1]
    | ok survey =>
      rw [step, (reload_of_ok hrun).2] at h
      cases h
  | _ => rfl

/-- A reload that succeeds replaces what is published by what it has found. -/
theorem published_step_of_isLoad {op : Operation} (h : (l.step op).2.isLoad = true) :
    ∃ files survey, (l.dryRun files).outcome = .ok survey ∧
      (l.step op).1.published = registriesOf (l.generation + 1) survey := by
  cases op with
  | reload files =>
    cases hrun : (l.dryRun files).outcome with
    | error report =>
      rw [step, (reload_of_error hrun).2] at h
      cases h
    | ok survey =>
      refine ⟨files, survey, hrun, ?_⟩
      rw [step, (reload_of_ok hrun).1]
  | _ => cases h

/-- The notes of a loader bear on no answer, and no operation brings them into anything else. -/
theorem step_with_notes (l : Loader) (notes : NoteLog) (op : Operation) :
    ∃ after, ({ l with notes := notes } : Loader).step op =
      ({ (l.step op).1 with notes := after }, (l.step op).2) := by
  cases op with
  | reload files =>
    refine ⟨(l.reload files).1.notes, ?_⟩
    cases h : (l.dryRun files).outcome with
    | error report =>
      have h' : (({ l with notes := notes } : Loader).dryRun files).outcome = .error report := h
      rw [step, step, (reload_of_error h).1, (reload_of_error h).2, (reload_of_error h').1,
        (reload_of_error h').2]
      rfl
    | ok survey =>
      have h' : (({ l with notes := notes } : Loader).dryRun files).outcome = .ok survey := h
      rw [step, step, (reload_of_ok h).1, (reload_of_ok h).2, (reload_of_ok h').1,
        (reload_of_ok h').2]
      rfl
  | _ => exact ⟨notes, rfl⟩

/-! ## Whole sessions -/

/-- What every operation keeps, a session keeps. -/
theorem run_induction {P : Loader → Prop} (hstep : ∀ l op, P l → P (l.step op).1) (l : Loader)
    (h : P l) (ops : List Operation) : P (l.run ops).1 := by
  induction ops generalizing l with
  | nil => exact h
  | cons op ops ih => exact ih (l.step op).1 (hstep l op h)

theorem discovery_run (l : Loader) (ops : List Operation) :
    (l.run ops).1.discovery = l.discovery :=
  run_induction (P := fun after => after.discovery = l.discovery)
    (fun after op h => (discovery_step after op).trans h) l rfl ops

/-- A session adds to the generation the number of its reloads that succeed. -/
theorem generation_run (l : Loader) (ops : List Operation) :
    (l.run ops).1.generation = l.generation + (l.run ops).2.countP Answer.isLoad := by
  induction ops generalizing l with
  | nil => rfl
  | cons op ops ih =>
    have hstep := generation_step l op
    have hrest := ih (l.step op).1
    rw [run, List.countP_cons, hrest, hstep]
    omega

theorem answers_with_notes (l : Loader) (notes : NoteLog) (ops : List Operation) :
    (({ l with notes := notes } : Loader).run ops).2 = (l.run ops).2 := by
  induction ops generalizing l notes with
  | nil => rfl
  | cons op ops ih =>
    obtain ⟨after, hstep⟩ := step_with_notes l notes op
    rw [run, run, hstep, ih]

/-- Before the first load that succeeds nothing is published. -/
theorem published_run_of_generation (catalog : Catalog) (searchPath : List ModuleRoot)
    (settings : Settings) (ops : List Operation) :
    ((start catalog searchPath settings).run ops).1.generation = 0 →
      ((start catalog searchPath settings).run ops).1.published = {} := by
  refine run_induction (P := fun l => l.generation = 0 → l.published = {}) (fun l op h hzero => ?_)
    _ (fun _ => rfl) ops
  have hstep := generation_step l op
  cases hload : (l.step op).2.isLoad with
  | false =>
    rw [hload] at hstep
    rw [published_step_of_not_isLoad hload]
    exact h (hstep.symm.trans hzero)
  | true =>
    rw [hload, hzero] at hstep
    exact absurd hstep.symm (Nat.succ_ne_zero _)

/-- After every session the generation is the number of reloads that have succeeded, and a loader
that counts none has empty registries. From then on only a reload that succeeds changes what is
published. One that fails is seen by no later operation; one that succeeds publishes under each name
the plugin of that name among those that a loader without a past would find, and nothing else. -/
theorem loads_count_and_replace (catalog : Catalog) (searchPath : List ModuleRoot)
    (settings : Settings) (ops : List Operation) :
    let l := ((start catalog searchPath settings).run ops).1
    let loads := ((start catalog searchPath settings).run ops).2.countP Answer.isLoad
    l.generation = loads ∧
      (l.isLoaded = true ↔ 0 < loads) ∧
      (l.isLoaded = false → ∀ side, l.published.on side = .empty) ∧
      (∀ op, (l.step op).2.isLoad = false → (l.step op).1.published = l.published) ∧
      (∀ files report, (l.reload files).2.outcome = .error report →
        (l.reload files).1.published = l.published ∧
          ∀ later, ((l.reload files).1.run later).2 = (l.run later).2) ∧
      (∀ files report, (l.reload files).2.outcome = .ok report →
        ∃ survey, ((start catalog searchPath settings).dryRun files).outcome = .ok survey ∧
          report.generation = l.generation + 1 ∧
          (l.reload files).1.published.generation = l.generation + 1 ∧
          ∀ side name plugin,
            ((l.reload files).1.published.on side).get? name = some plugin ↔
              plugin ∈ survey.on side ∧ plugin.name = name) := by
  intro l loads
  have hloads : l.generation = loads := by
    have hrun := generation_run (start catalog searchPath settings) ops
    rw [hrun]
    exact Nat.zero_add _
  have hloaded : l.isLoaded = true ↔ 0 < loads := by
    rw [← hloads, isLoaded, decide_eq_true_iff]
    omega
  refine ⟨hloads, hloaded, fun hnone side => ?_, fun op h => published_step_of_not_isLoad h,
    fun files report h => ?_, fun files report h => ?_⟩
  · have hzero : l.generation = 0 := by
      have hnot : ¬0 < loads := fun hpos => by
        rw [hloaded.2 hpos] at hnone
        cases hnone
      omega
    rw [published_run_of_generation catalog searchPath settings ops hzero]
    cases side <;> rfl
  · have hreload := (reload_of_error (dryRun_of_reload_error h)).1
    rw [hreload]
    exact ⟨rfl, fun later => answers_with_notes l _ later⟩
  · obtain ⟨survey, hrun, rfl⟩ := dryRun_of_reload_ok h
    have hdiscovery : l.discovery = (start catalog searchPath settings).discovery :=
      discovery_run _ ops
    refine ⟨survey, ?_, rfl, ?_, ?_⟩
    · rw [dryRun, ← hdiscovery]
      exact hrun
    · rw [(reload_of_ok hrun).1]
      rfl
    · rw [(reload_of_ok hrun).1]
      exact get?_of_dryRun hrun _

end Loader

end PluginDiscovery
