import PluginDiscovery.Loader
import PluginDiscovery.Proofs.Coherence
import PluginDiscovery.Proofs.Passes

/-!
# The verdict of a load

A load has five stages: it reads the manifest of the extension points and resolves what it lists,
then does the same with the manifest of the implementations, and then checks what it has found. The
first stage that fails decides how the load ends. `Discovery.Verdict` says so stage by stage, in
terms of the files, the listings and the rules alone; `Discovery.outcome_survey_eq_iff` says that a
load ends with an outcome exactly when that is its verdict.
-/

namespace PluginDiscovery.Discovery

variable {d : Discovery} {files : Files}

/-- What the passes find, before it is checked. -/
def candidates (d : Discovery) (files : Files) : Candidates where
  interfaces := (d.passResult files .interfaces).plugins
  implementations := (d.passResult files .implementations).plugins

theorem on_candidates (d : Discovery) (files : Files) (side : Side) :
    (d.candidates files).on side = (d.passResult files side).plugins := by
  cases side <;> rfl

/-- What the passes find, once it is known to be coherent. -/
def surveyResult (d : Discovery) (files : Files) : Survey where
  interfaces := (d.passResult files .interfaces).plugins
  implementations := (d.passResult files .implementations).plugins
  skipped := (d.passResult files .implementations).skipped

/-- A pass meets no fault: all fragments can be read and all names are admitted. -/
structure Clear (d : Discovery) (files : Files) (side : Side) : Prop where
  /-- Every fragment that is there can be read. -/
  readable : ∀ root ∈ d.searchPath, Manifest.Readable files (d.settings.manifest side) root
  /-- Every listed name is admitted. -/
  admitted : ∀ listing ∈ d.listings files side, d.Admits side listing.typeName

theorem passFault?_eq_none_iff {side : Side} :
    d.passFault? files side = none ↔ d.Clear files side := by
  unfold passFault?
  rw [Option.or_eq_none_iff, Manifest.firstFault?_eq_none_iff, firstFault?_eq_none_iff]
  exact ⟨fun h => ⟨h.1, h.2⟩, fun h => ⟨h.1, h.2⟩⟩

theorem Clear.outcome_read {side : Side} (h : d.Clear files side) :
    (Manifest.read files (d.settings.manifest side) d.searchPath).outcome =
      .ok (d.listings files side) := by
  rw [Manifest.outcome_read, Manifest.firstFault?_eq_none_iff.2 h.readable]
  rfl

theorem Clear.outcome_pass {side : Side} (h : d.Clear files side) :
    (d.pass files side).outcome = .ok (d.passResult files side) := by
  rw [Discovery.outcome_pass, passFault?_eq_none_iff.2 h]

/-! ## The outcome of a survey -/

theorem outcome_survey_of_interfaces {fault : Fault}
    (h : d.passFault? files .interfaces = some fault) :
    (d.survey files).outcome = .error (.fatal fault) := by
  refine Traced.outcome_andThen_of_error ?_ _
  rw [outcome_pass, h]

theorem outcome_survey_of_implementations {fault : Fault} (hclear : d.Clear files .interfaces)
    (h : d.passFault? files .implementations = some fault) :
    (d.survey files).outcome = .error (.fatal fault) := by
  refine (Traced.outcome_andThen_of_ok hclear.outcome_pass _).trans
    (Traced.outcome_andThen_of_error ?_ _)
  rw [outcome_pass, h]

/-- Once both passes have succeeded, the check decides. -/
theorem outcome_survey_of_passes {interfaces implementations : Pass}
    (hinterfaces : (d.pass files .interfaces).outcome = .ok interfaces)
    (himplementations : (d.pass files .implementations).outcome = .ok implementations) :
    (d.survey files).outcome =
      (d.check ⟨interfaces.plugins, implementations.plugins⟩).outcome.map fun _ =>
        ⟨interfaces.plugins, implementations.plugins, implementations.skipped⟩ := by
  refine (Traced.outcome_andThen_of_ok hinterfaces _).trans
    ((Traced.outcome_andThen_of_ok himplementations _).trans ?_)
  exact Traced.outcome_andThen_ok _ _

theorem outcome_survey_of_clear (hclear : ∀ side, d.Clear files side) :
    (d.survey files).outcome =
      (d.check (d.candidates files)).outcome.map fun _ => d.surveyResult files :=
  outcome_survey_of_passes (hclear _).outcome_pass (hclear _).outcome_pass

/-- The fault of the first pass decides, else that of the second one, and else the check. -/
theorem outcome_survey_eq (d : Discovery) (files : Files) :
    (d.survey files).outcome =
      match (d.passFault? files .interfaces).or (d.passFault? files .implementations) with
      | some fault => .error (.fatal fault)
      | none => (d.check (d.candidates files)).outcome.map fun _ => d.surveyResult files := by
  cases hinterfaces : d.passFault? files .interfaces with
  | some fault => exact outcome_survey_of_interfaces hinterfaces
  | none =>
    have hfirst := passFault?_eq_none_iff.1 hinterfaces
    cases himplementations : d.passFault? files .implementations with
    | some fault => exact outcome_survey_of_implementations hfirst himplementations
    | none =>
      have hsecond := passFault?_eq_none_iff.1 himplementations
      exact outcome_survey_of_passes hfirst.outcome_pass hsecond.outcome_pass

/-! ## The verdict -/

/-- How a load ends. What comes before a stage has gone well: the second pass starts only if the
first one is clear, and the check only if both are. -/
inductive Verdict (d : Discovery) (files : Files) : Except FaultReport Survey → Prop where
  /-- A fragment cannot be read; it is the first such one on the search path. -/
  | unreadable (side : Side) (hside : side = .implementations → d.Clear files .interfaces)
      {before after : List ModuleRoot} {root : ModuleRoot} {reason : String}
      (hpath : d.searchPath = before ++ root :: after)
      (hbefore : ∀ other ∈ before, Manifest.Readable files (d.settings.manifest side) other)
      (hroot : Manifest.failureOf? files (d.settings.manifest side) root = some reason) :
      Verdict d files (.error (.fatal ⟨.unreadableManifest,
        [Manifest.sourceOf (d.settings.manifest side) root, reason]⟩))
  /-- All fragments can be read, but a listed name is not admitted; it is the first such one. -/
  | unresolved (side : Side) (hside : side = .implementations → d.Clear files .interfaces)
      (hread : ∀ root ∈ d.searchPath, Manifest.Readable files (d.settings.manifest side) root)
      {before after : List Listing} {listing : Listing} {error : Catalog.LinkError}
      (hlistings : d.listings files side = before ++ listing :: after)
      (hbefore : ∀ other ∈ before,
        d.Admits side other.typeName ∧ other.typeName ≠ listing.typeName)
      (hrefused : ¬d.Admits side listing.typeName)
      (hlink : d.catalog.link listing.typeName = .error error) :
      Verdict d files (.error (.fatal ⟨.unresolvedType,
        [listing.typeName, listing.position, error.message]⟩))
  /-- Both passes are clear, but what they find breaks a rule. -/
  | incoherent (hclear : ∀ side, d.Clear files side)
      (hbroken : ¬∀ rule ∈ d.rules, rule.Holds d.catalog (d.candidates files)) :
      Verdict d files (.error (.declarations
        (Coherence.violations d.catalog d.rules (d.candidates files))))
  /-- Both passes are clear, and what they find keeps all rules. -/
  | coherent (hclear : ∀ side, d.Clear files side)
      (hholds : ∀ rule ∈ d.rules, rule.Holds d.catalog (d.candidates files)) :
      Verdict d files (.ok (d.surveyResult files))

/-- The fault of a pass decides the load, unless an earlier pass has done so. -/
theorem verdict_of_passFault? {side : Side}
    (hside : side = .implementations → d.Clear files .interfaces) {fault : Fault}
    (h : d.passFault? files side = some fault) : d.Verdict files (.error (.fatal fault)) := by
  unfold passFault? at h
  cases hread : Manifest.firstFault? files (d.settings.manifest side) d.searchPath with
  | some first =>
    rw [hread, Option.some_or] at h
    obtain ⟨before, root, after, reason, hpath, hbefore, hroot, rfl⟩ :=
      Manifest.firstFault?_eq_some_iff.1 (Option.some.inj h ▸ hread)
    exact .unreadable side hside hpath hbefore hroot
  | none =>
    rw [hread, Option.none_or] at h
    obtain ⟨before, listing, after, error, hlistings, hbefore, hrefused, hlink, rfl⟩ :=
      (d.firstFault?_eq_some_iff).1 h
    exact .unresolved side hside (Manifest.firstFault?_eq_none_iff.1 hread) hlistings hbefore
      hrefused hlink

theorem outcome_survey_of_passFault? {side : Side}
    (hside : side = .implementations → d.Clear files .interfaces) {fault : Fault}
    (h : d.passFault? files side = some fault) :
    (d.survey files).outcome = .error (.fatal fault) := by
  cases side with
  | interfaces => exact outcome_survey_of_interfaces h
  | implementations => exact outcome_survey_of_implementations (hside rfl) h

theorem outcome_survey_of_holds (hclear : ∀ side, d.Clear files side)
    (hholds : ∀ rule ∈ d.rules, rule.Holds d.catalog (d.candidates files)) :
    (d.survey files).outcome = .ok (d.surveyResult files) := by
  rw [outcome_survey_of_clear hclear, check, Coherence.outcome_check_of_holds hholds]
  rfl

/-- Faults and violations can be computed, so this is how a given run is seen to succeed. -/
theorem outcome_survey_of_faultless (hfaults : ∀ side, d.passFault? files side = none)
    (hviolations : Coherence.violations d.catalog d.rules (d.candidates files) = []) :
    (d.survey files).outcome = .ok (d.surveyResult files) := by
  have hclear : ∀ side, d.Clear files side := fun side => passFault?_eq_none_iff.1 (hfaults side)
  exact outcome_survey_of_holds hclear (Coherence.violations_eq_nil_iff.1 hviolations)

theorem outcome_survey_of_not_holds (hclear : ∀ side, d.Clear files side)
    (hbroken : ¬∀ rule ∈ d.rules, rule.Holds d.catalog (d.candidates files)) :
    (d.survey files).outcome = .error (.declarations
      (Coherence.violations d.catalog d.rules (d.candidates files))) := by
  rw [outcome_survey_of_clear hclear, check, Coherence.outcome_check_of_not_holds hbroken]
  rfl

/-- Every load has a verdict, and it ends as the verdict says. -/
theorem verdict_survey (d : Discovery) (files : Files) :
    d.Verdict files (d.survey files).outcome := by
  cases hinterfaces : d.passFault? files .interfaces with
  | some fault =>
    rw [outcome_survey_of_interfaces hinterfaces]
    exact verdict_of_passFault? (fun h => by cases h) hinterfaces
  | none =>
    have hfirst := passFault?_eq_none_iff.1 hinterfaces
    cases himplementations : d.passFault? files .implementations with
    | some fault =>
      rw [outcome_survey_of_implementations hfirst himplementations]
      exact verdict_of_passFault? (fun _ => hfirst) himplementations
    | none =>
      have hclear : ∀ side, d.Clear files side := fun side => by
        cases side with
        | interfaces => exact hfirst
        | implementations => exact passFault?_eq_none_iff.1 himplementations
      by_cases hholds : ∀ rule ∈ d.rules, rule.Holds d.catalog (d.candidates files)
      · rw [outcome_survey_of_holds hclear hholds]
        exact .coherent hclear hholds
      · rw [outcome_survey_of_not_holds hclear hholds]
        exact .incoherent hclear hholds

/-- A verdict is how the load ends, so a load has one verdict only. -/
theorem outcome_survey_of_verdict {outcome : Except FaultReport Survey}
    (h : d.Verdict files outcome) : (d.survey files).outcome = outcome := by
  cases h with
  | unreadable side hside hpath hbefore hroot =>
    refine outcome_survey_of_passFault? hside ?_
    have hread := Manifest.firstFault?_eq_some_iff.2 ⟨_, _, _, _, hpath, hbefore, hroot, rfl⟩
    rw [passFault?, hread, Option.some_or]
    rfl
  | unresolved side hside hread hlistings hbefore hrefused hlink =>
    refine outcome_survey_of_passFault? hside ?_
    rw [passFault?, Manifest.firstFault?_eq_none_iff.2 hread, Option.none_or]
    exact (d.firstFault?_eq_some_iff).2
      ⟨_, _, _, _, hlistings, hbefore, hrefused, hlink, rfl⟩
  | incoherent hclear hbroken => exact outcome_survey_of_not_holds hclear hbroken
  | coherent hclear hholds => exact outcome_survey_of_holds hclear hholds

theorem outcome_survey_eq_iff {outcome : Except FaultReport Survey} :
    (d.survey files).outcome = outcome ↔ d.Verdict files outcome :=
  ⟨fun h => h ▸ verdict_survey d files, outcome_survey_of_verdict⟩

/-- A load succeeds exactly when both passes are clear and all rules are kept. -/
theorem outcome_survey_eq_ok_iff {survey : Survey} :
    (d.survey files).outcome = .ok survey ↔
      (∀ side, d.Clear files side) ∧
        (∀ rule ∈ d.rules, rule.Holds d.catalog (d.candidates files)) ∧
        survey = d.surveyResult files := by
  rw [outcome_survey_eq_iff]
  constructor
  · intro h
    cases h with
    | coherent hclear hholds => exact ⟨hclear, hholds, rfl⟩
  · rintro ⟨hclear, hholds, rfl⟩
    exact .coherent hclear hholds

end PluginDiscovery.Discovery
