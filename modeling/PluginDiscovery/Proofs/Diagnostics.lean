import Mathlib.Data.List.Forall2
import PluginDiscovery.Config.Diagnostic
import PluginDiscovery.Proofs.KeyPosition

/-!
# What diagnostics point at

Each failure of a chain has one diagnostic, the last failure first. The diagnostic of an unknown key
points into the text of the file that the key comes from, if that text is at hand and the key is
found in it. `Label.Marks` says what such a label has to be: it covers the bytes of the key and no
others, within the text of the right source, and what follows is what may follow a key.
-/

namespace PluginDiscovery.Config

theorem length_bytesOf (text : String) : (bytesOf text).length = text.utf8ByteSize := rfl

/-- A label covers an occurrence of the key in the first of the sources that has the path of the
file which the failure is about. -/
structure Label.Marks (label : Label) (sources : List Source) (failure : Failure) (key : String) :
    Prop where
  /-- The source is the first one with the path of the file. -/
  source : failure.origin = some (.file label.source.path) ∧
    ∃ before after, sources = before ++ label.source :: after ∧
      ∀ other ∈ before, other.path ≠ label.source.path
  /-- The label is as long as the key. -/
  length : label.length = (bytesOf key).length
  /-- The label ends within the text. -/
  within : label.offset + label.length ≤ (bytesOf label.source.text).length
  /-- The label covers the key. -/
  covers : ((bytesOf label.source.text).drop label.offset).take label.length = bytesOf key
  /-- A space, a tab or an equals sign comes next. -/
  next : ∃ byte, (bytesOf label.source.text)[label.offset + label.length]? = some byte ∧
    (byte = 0x20 ∨ byte = 0x09 ∨ byte = 0x3D)

namespace Diagnostic

/-- The stretch of text that a diagnostic shows: its offset and its length. -/
def span? : Diagnostic → Option (Nat × Nat)
  | unknownKey _ _ _ label => label.map fun label => (label.offset, label.length)
  | _ => none

/-- The source that a diagnostic shows. -/
def source? : Diagnostic → Option Source
  | unknownKey _ _ _ label => label.map (·.source)
  | _ => none

variable {sources : List Source}

theorem isSome_span? (diagnostic : Diagnostic) :
    diagnostic.span?.isSome = diagnostic.source?.isSome := by
  cases diagnostic with
  | unknownKey key suggestion known label => cases label <;> rfl
  | _ => rfl

/-! ## Labels -/

theorem locate_eq_some_iff {origin : Option Origin} {path : List String} {key : String}
    {label : Label} :
    locate origin path key sources = some label ↔
      ∃ file, origin = some (.file file) ∧ sources.find? (·.path = file) = some label.source ∧
        keyOffset? label.source.text path key = some label.offset ∧
        label.length = key.utf8ByteSize := by
  unfold locate
  split
  · next file =>
    constructor
    · intro h
      obtain ⟨source, hsource, h⟩ := Option.bind_eq_some_iff.1 h
      obtain ⟨offset, hoffset, h⟩ := Option.bind_eq_some_iff.1 h
      cases h
      exact ⟨file, rfl, hsource, hoffset, rfl⟩
    · rintro ⟨other, hother, hsource, hoffset, hlength⟩
      cases hother
      obtain ⟨offset, length, source⟩ := label
      simp only at hsource hoffset hlength
      simp [hsource, hoffset, hlength]
  · next hnot =>
    constructor
    · intro h
      cases h
    · rintro ⟨file, hfile, -⟩
      exact absurd hfile (hnot file)

theorem marks_of_locate {failure : Failure} {key : String} {label : Label}
    (h : locate failure.origin failure.path key sources = some label) :
    label.Marks sources failure key := by
  obtain ⟨file, horigin, hsource, hoffset, hlength⟩ := locate_eq_some_iff.1 h
  obtain ⟨hpath, before, after, hsources, hbefore⟩ := List.find?_eq_some_iff_append.1 hsource
  have hfile : label.source.path = file := of_decide_eq_true hpath
  subst hfile
  rw [← length_bytesOf] at hlength
  obtain ⟨hwithin, hcovers, hnext⟩ := (givesAt_of_keyOffset? hoffset).bytes
  rw [← hlength] at hwithin hcovers hnext
  refine ⟨⟨horigin, before, after, hsources, fun other hother heq => ?_⟩, hlength, hwithin, hcovers,
    hnext⟩
  have hnot := hbefore other hother
  simp [heq] at hnot

/-! ## Diagnostics of single failures -/

/-- What the diagnostic of a failure tells about keys that are not known. -/
structure Explains (sources : List Source) (failure : Failure) (diagnostic : Diagnostic) :
    Prop where
  /-- A stretch of text is shown together with its source or not at all. -/
  paired : diagnostic.span?.isSome = diagnostic.source?.isSome
  /-- The diagnostic is about an unknown key if the failure is. -/
  about : ∀ key known, failure.cause = .unknownKey key known ↔
    ∃ suggestion label, diagnostic = .unknownKey key suggestion known label
  /-- A label marks the key. -/
  marks : ∀ key suggestion known label,
    diagnostic = .unknownKey key suggestion known (some label) → label.Marks sources failure key
  /-- Without a label the key has no position in a source at hand. -/
  unlabelled : ∀ key suggestion known, diagnostic = .unknownKey key suggestion known none →
    ∀ file source, failure.origin = some (.file file) →
      sources.find? (·.path = file) = some source →
      keyOffset? source.text failure.path key = none

theorem ofFailure_of_unknownKey {failure : Failure} {key : String} {known : List String}
    (h : failure.cause = .unknownKey key known) :
    ofFailure sources failure = .unknownKey key (suggest? key known) known
      (locate failure.origin failure.path key sources) := by
  simp only [ofFailure, h]

theorem cause_of_ofFailure {failure : Failure} {key : String} {suggestion : Option String}
    {known : List String} {label : Option Label}
    (h : ofFailure sources failure = .unknownKey key suggestion known label) :
    failure.cause = .unknownKey key known ∧
      label = locate failure.origin failure.path key sources := by
  unfold ofFailure at h
  split at h
  · next key' known' hcause =>
    cases h
    exact ⟨hcause, rfl⟩
  all_goals cases h

theorem explains_ofFailure (sources : List Source) (failure : Failure) :
    Explains sources failure (ofFailure sources failure) := by
  refine ⟨isSome_span? _, fun key known => ⟨fun hcause => ?_, ?_⟩, ?_, ?_⟩
  · exact ⟨_, _, ofFailure_of_unknownKey hcause⟩
  · rintro ⟨suggestion, label, h⟩
    exact (cause_of_ofFailure h).1
  · intro key suggestion known label h
    have hlocate := (cause_of_ofFailure h).2
    exact marks_of_locate hlocate.symm
  · intro key suggestion known h file source horigin hsource
    have hlocate := (cause_of_ofFailure h).2
    cases hoffset : keyOffset? source.text failure.path key with
    | none => rfl
    | some offset =>
      have hlabel : locate failure.origin failure.path key sources =
          some ⟨offset, key.utf8ByteSize, source⟩ :=
        locate_eq_some_iff.2 ⟨file, horigin, hsource, hoffset, rfl⟩
      rw [hlabel] at hlocate
      cases hlocate

/-- Every failure of a chain is explained by one diagnostic, in the opposite order. If the failure
is that a key is not known, so is the diagnostic, and then it shows a stretch of a source or shows
nothing. The source is the first one with the path of the file that the failure is about; the
stretch lies within its text, consists of exactly the bytes of the key, and is followed by a space,
a tab or an equals sign. Nothing is shown only where there is no such source or no position of the
key in it. -/
theorem diagnostics_mark_keys (sources : List Source) (failures : List Failure) :
    (ofFailures sources failures).length = failures.length ∧
      List.Forall₂ (Explains sources) failures.reverse (ofFailures sources failures) := by
  refine ⟨length_ofFailures sources failures, ?_⟩
  unfold ofFailures
  rw [List.forall₂_map_right_iff, List.forall₂_same]
  intro failure _
  exact explains_ofFailure sources failure

end Diagnostic

end PluginDiscovery.Config
