import PluginDiscovery.Proofs.Diagnostics
import PluginDiscovery.Proofs.Origins

/-!
# Which unknown keys are shown

An unknown key is shown in the text that it comes from only if that text is a file and the file is
at hand. So nothing is ever shown of a text alone, although it is handed to the diagnostics
(`unlabelled_keys_of_text`). Of the files that are merged, all are at hand but the one of a folder
above the working folder, and an unknown key is shown in those that are (`labels_of_merged_files`).
-/

namespace PluginDiscovery.Config

namespace Diagnostic

/-! ## Failures without a file -/

section NotFile

variable {failure : Failure}

theorem locate_of_not_file (h : ∀ file, failure.origin ≠ some (.file file)) (path : List String)
    (key : String) (sources : List Source) : locate failure.origin path key sources = none := by
  unfold locate
  split
  · next file horigin => exact absurd horigin (h file)
  · rfl

/-- Without a file it makes no difference which sources are at hand. -/
theorem ofFailure_of_not_file (h : ∀ file, failure.origin ≠ some (.file file))
    (sources others : List Source) : ofFailure sources failure = ofFailure others failure := by
  unfold ofFailure
  split
  · rw [locate_of_not_file h, locate_of_not_file h]
  all_goals rfl

theorem shows_nothing_of_not_file (h : ∀ file, failure.origin ≠ some (.file file))
    (sources : List Source) :
    (ofFailure sources failure).span? = none ∧ (ofFailure sources failure).source? = none := by
  unfold ofFailure
  split
  · rw [locate_of_not_file h]
    exact ⟨rfl, rfl⟩
  all_goals exact ⟨rfl, rfl⟩

end NotFile

/-! ## A text alone -/

section Text

variable {text : String} {failures : List Failure}

/-- No failure to load a text alone is about a file. -/
theorem not_file_of_text
    (h : ofLayers [layerOf (.named "TOML source string") text] = .error failures) :
    ∀ failure ∈ failures, ∀ file, failure.origin ≠ some (.file file) := by
  have hlayers : ∀ layer ∈ [layerOf (.named "TOML source string") text],
      LayerFrom (fun origin => ∃ name, origin = .named name) layer :=
    List.forall_mem_singleton.2 (layerFrom_layerOf ⟨_, rfl⟩ text)
  intro failure hfailure file hfile
  obtain ⟨origin, horigin, name, rfl⟩ := origins_of_failures hlayers ⟨_, rfl⟩ h failure hfailure
  rw [hfile] at horigin
  cases horigin

theorem loadText_of_error
    (h : ofLayers [layerOf (.named "TOML source string") text] = .error failures)
    (sources : List Source) : loadText text = .error (ofFailures sources failures) := by
  have hsame : ofFailures [{ path := inlineName, text }] failures =
      ofFailures sources failures := by
    refine List.map_congr_left ?_
    intro failure hfailure
    exact ofFailure_of_not_file (not_file_of_text h failure (List.mem_reverse.1 hfailure)) _ _
  rw [← hsame, loadText, h]
  rfl

theorem shows_nothing_of_validate {config : Config} {diagnostics : List Diagnostic}
    (h : validate config = .error diagnostics) :
    ∀ diagnostic ∈ diagnostics, diagnostic.span? = none ∧ diagnostic.source? = none := by
  rw [validate] at h
  by_cases hproblems : (problems config).isEmpty = true
  · rw [if_pos hproblems] at h
    exact absurd h.symm nofun
  · rw [if_neg hproblems] at h
    intro diagnostic hdiagnostic
    rw [← Except.error.inj h] at hdiagnostic
    obtain ⟨problem, -, rfl⟩ := List.mem_map.1 hdiagnostic
    exact ⟨rfl, rfl⟩

/-- Whatever sources are at hand, the diagnostics of a text alone are the same, and none of them
shows a stretch of a source. An unknown key has no label even where it can be found in the text. -/
theorem unlabelled_keys_of_text (text : String) :
    (∀ sources, (ofLayers [layerOf (.named "TOML source string") text]).mapError
        (ofFailures sources) = loadText text) ∧
      (∀ diagnostics, loadValidText text = .error diagnostics →
        ∀ diagnostic ∈ diagnostics, diagnostic.span? = none ∧ diagnostic.source? = none) ∧
      ∀ failures, ofLayers [layerOf (.named "TOML source string") text] = .error failures →
        ∀ failure ∈ failures, ∀ key known, failure.cause = .unknownKey key known →
          ∃ diagnostics, loadValidText text = .error diagnostics ∧
            .unknownKey key (suggest? key known) known none ∈ diagnostics := by
  refine ⟨?_, ?_, ?_⟩
  · intro sources
    cases hload : ofLayers [layerOf (.named "TOML source string") text] with
    | ok config =>
      rw [loadText, hload]
      rfl
    | error failures =>
      rw [loadText_of_error hload sources]
      rfl
  · intro diagnostics h
    cases hload : ofLayers [layerOf (.named "TOML source string") text] with
    | ok config =>
      have hvalidate : loadValidText text = validate config := by
        simp only [loadValidText, loadText, hload, Except.mapError, bind, Except.bind]
      exact shows_nothing_of_validate (hvalidate.symm.trans h)
    | error failures =>
      rw [loadValidText, loadText_of_error hload []] at h
      cases h
      intro diagnostic hdiagnostic
      obtain ⟨failure, hfailure, rfl⟩ := List.mem_map.1 hdiagnostic
      have hnot := not_file_of_text hload failure (List.mem_reverse.1 hfailure)
      exact shows_nothing_of_not_file hnot []
  · intro failures hload failure hfailure key known hcause
    refine ⟨ofFailures [] failures, ?_, ?_⟩
    · rw [loadValidText, loadText_of_error hload []]
      rfl
    · have hnot := not_file_of_text hload failure hfailure
      have hlocate := locate_of_not_file hnot failure.path key []
      rw [← hlocate, ← ofFailure_of_unknownKey hcause]
      exact List.mem_map_of_mem (List.mem_reverse.2 hfailure)

/-- A document in which a key is misspelt. -/
def misspelt : String := "[discovery]\nserch_path = []\n"

/-- The key can be found in the text, and yet its diagnostic shows nothing. -/
theorem misspelt_unlabelled :
    ofLayers [layerOf (.named "TOML source string") misspelt] =
        .error [{ cause := .unknownKey "serch_path" Discovery.keys
                  path := ["discovery", "serch_path"]
                  origin := some (.named "TOML source string") }] ∧
      keyOffset? misspelt ["discovery", "serch_path"] "serch_path" = some 12 ∧
      ∃ diagnostics, loadValidText misspelt = .error diagnostics ∧
        .unknownKey "serch_path" (suggest? "serch_path" Discovery.keys) Discovery.keys none ∈
          diagnostics := by
  have hdocument : Toml.document? misspelt =
      some [("discovery", .table [("serch_path", .list [])])] := by cbv
  have hload : ofLayers [layerOf (.named "TOML source string") misspelt] =
      .error [{ cause := .unknownKey "serch_path" Discovery.keys
                path := ["discovery", "serch_path"]
                origin := some (.named "TOML source string") }] := by
    rw [layerOf, hdocument]
    rfl
  refine ⟨hload, by decide +kernel, ?_⟩
  exact (unlabelled_keys_of_text misspelt).2.2 _ hload _ List.mem_cons_self _ _ rfl

end Text

end Diagnostic

/-! ## The files that are merged -/

namespace Hierarchy

variable (h : Hierarchy)

/-- The file of a folder above the working folder. It counts if the working folder has none. -/
def above : Option Source :=
  match h.folders with
  | none :: folders => folders.findSome? id
  | _ => none

/-- Of the files that are merged, all but the one above the working folder can be shown. -/
theorem merged_eq_shown_append : h.merged = h.shown ++ h.above.toList := by
  unfold merged shown above
  cases h.folders with
  | nil => simp
  | cons file folders =>
    cases file with
    | none => simp
    | some source => simp

theorem find?_shown {file : String} {source : Source}
    (hsource : h.merged.find? (·.path = file) = some source) :
    h.shown.find? (·.path = file) = if source ∈ h.shown then some source else none := by
  rw [merged_eq_shown_append, List.find?_append] at hsource
  cases hshown : h.shown.find? (·.path = file) with
  | some other =>
    rw [hshown] at hsource
    cases hsource
    rw [if_pos (List.mem_of_find?_eq_some hshown)]
  | none =>
    rw [hshown, Option.none_or] at hsource
    have hpath := List.find?_some hsource
    have hnot : source ∉ h.shown := by
      intro hmem
      exact List.find?_eq_none.1 hshown source hmem hpath
    rw [if_neg hnot]

/-- A failure to load the standard layers that is about a file is about one that is merged. -/
theorem exists_merged_of_failure {environment : List (String × String)} {failures : List Failure}
    (hload : ofLayers (h.merged.map fileLayer ++ [.ok (ofEnvironment environment)]) =
      .error failures) {failure : Failure} (hfailure : failure ∈ failures) {file : String}
    (hfile : failure.origin = some (.file file)) :
    ∃ source, h.merged.find? (·.path = file) = some source := by
  let known : Origin → Prop := fun origin =>
    (∃ name, origin = .named name) ∨ ∃ source ∈ h.merged, origin = .file source.path
  have hlayers : ∀ layer ∈ h.merged.map fileLayer ++ [.ok (ofEnvironment environment)],
      LayerFrom known layer := by
    intro layer hlayer
    rcases List.mem_append.1 hlayer with hlayer | hlayer
    · obtain ⟨source, hsource, rfl⟩ := List.mem_map.1 hlayer
      exact layerFrom_layerOf (.inr ⟨source, hsource, rfl⟩) source.text
    · rw [List.mem_singleton.1 hlayer]
      refine layerFrom_ok ((fromEnvironment_ofEnvironment environment).mono ?_)
      intro origin horigin
      exact .inl ⟨_, horigin⟩
  obtain ⟨origin, horigin, hknown⟩ :=
    origins_of_failures hlayers (.inl ⟨_, rfl⟩) hload failure hfailure
  rw [hfile] at horigin
  cases horigin
  rcases hknown with ⟨name, hname⟩ | ⟨source, hsource, hpath⟩
  · cases hname
  · cases hpath
    exact Option.isSome_iff_exists.1 (List.find?_isSome.2 ⟨source, hsource, decide_eq_true rfl⟩)

/-- The files that are merged are those at hand and the one of a folder above the working folder. An
unknown key that comes from a file comes from one that is merged. Its diagnostic shows the key where
it is found in that file if the file is at hand, and shows nothing if it is not. -/
theorem labels_of_merged_files (environment : List (String × String)) :
    h.merged = h.shown ++ h.above.toList ∧
      ∀ failures, ofLayers (h.merged.map fileLayer ++ [.ok (ofEnvironment environment)]) =
          .error failures →
        h.loadValid environment = .error (Diagnostic.ofFailures h.shown failures) ∧
          ∀ failure ∈ failures, ∀ key known, failure.cause = .unknownKey key known →
            ∀ file, failure.origin = some (.file file) →
              ∃ source, h.merged.find? (·.path = file) = some source ∧
                Diagnostic.ofFailure h.shown failure =
                  .unknownKey key (suggest? key known) known
                    (if source ∈ h.shown then
                      (keyOffset? source.text failure.path key).map fun offset =>
                        { offset, length := key.utf8ByteSize, source }
                    else none) := by
  refine ⟨h.merged_eq_shown_append, ?_⟩
  intro failures hload
  refine ⟨?_, ?_⟩
  · rw [loadValid, load, hload]
    rfl
  · intro failure hfailure key known hcause file hfile
    obtain ⟨source, hsource⟩ := h.exists_merged_of_failure hload hfailure hfile
    refine ⟨source, hsource, ?_⟩
    rw [Diagnostic.ofFailure_of_unknownKey hcause, hfile]
    simp only [Diagnostic.locate, h.find?_shown hsource]
    split
    · cases hoffset : keyOffset? source.text failure.path key with
      | none => simp only [Option.bind_eq_bind, Option.bind_some, hoffset, Option.bind_none,
          Option.map_none]
      | some offset => simp only [Option.bind_eq_bind, Option.bind_some, hoffset, Option.map_some,
          Option.pure_def]
    · rfl

/-- A file in the folder above the working folder, in which a key is misspelt. -/
def fileAbove : Source := { path := "/srv/spindle.toml", text := "[logging]\nfiltr = \"debug\"\n" }

/-- The file is merged and the key can be found in it, and yet the diagnostic shows nothing. -/
theorem fileAbove_unlabelled :
    let h : Hierarchy := { folders := [none, some fileAbove] }
    let failure : Failure :=
      { cause := .unknownKey "filtr" Logging.keys, path := ["logging", "filtr"]
        origin := some (.file "/srv/spindle.toml") }
    ofLayers (h.merged.map fileLayer ++ [.ok (ofEnvironment [])]) = .error [failure] ∧
      h.merged = [fileAbove] ∧
      keyOffset? fileAbove.text ["logging", "filtr"] "filtr" = some 10 ∧
      h.loadValid [] = .error [.unknownKey "filtr" (suggest? "filtr" Logging.keys) Logging.keys
        none] := by
  intro h failure
  have hdocument : Toml.document? fileAbove.text =
      some [("logging", .table [("filtr", .text "debug")])] := by cbv
  have hmerged : h.merged = [fileAbove] := rfl
  have hload : ofLayers (h.merged.map fileLayer ++ [.ok (ofEnvironment [])]) =
      .error [failure] := by
    rw [hmerged, List.map_singleton, fileLayer, layerOf, hdocument]
    rfl
  obtain ⟨hvalid, hlabels⟩ := (labels_of_merged_files h []).2 _ hload
  obtain ⟨source, -, hlabel⟩ :=
    hlabels failure List.mem_cons_self "filtr" Logging.keys rfl "/srv/spindle.toml" rfl
  refine ⟨hload, hmerged, by decide +kernel, ?_⟩
  rw [hvalid]
  have hshown : source ∉ h.shown := List.not_mem_nil
  rw [if_neg hshown] at hlabel
  rw [← hlabel]
  rfl

end Hierarchy

end PluginDiscovery.Config
