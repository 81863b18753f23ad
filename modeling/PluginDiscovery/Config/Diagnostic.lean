import PluginDiscovery.Config.Failure
import PluginDiscovery.Config.KeyPosition
import PluginDiscovery.Config.Suggestion

/-!
# Diagnostics

What a user is told about a configuration that cannot be used. A diagnostic has a code, a sentence
and usually some help. An unknown key is also shown in the text of its file, if that text is at hand
and the key can be found in it.
-/

namespace PluginDiscovery.Config

/-- A text that configuration is read from. -/
structure Source where
  /-- Its path or name. -/
  path : String
  /-- The text. -/
  text : String
deriving DecidableEq, Repr

/-- A stretch of a source, in bytes. -/
structure Label where
  /-- Where it starts. -/
  offset : Nat
  /-- How long it is. -/
  length : Nat
  /-- The source. -/
  source : Source
deriving DecidableEq, Repr

/-- What is wrong with a configuration. -/
inductive Diagnostic where
  /-- A key that is not known, the valid key that may have been meant, and where it stands. -/
  | unknownKey (key : String) (suggestion : Option String) (validKeys : List String)
      (label : Option Label)
  /-- A value of the wrong type. -/
  | invalidType (key detail expected : String)
  /-- A key that has to be there and is not. -/
  | missingKey (key : String)
  /-- A value that makes no sense. -/
  | invalid (problem : String)
  /-- Anything else. -/
  | other (text : String)
deriving DecidableEq, Repr

namespace Diagnostic

/-- The code of a diagnostic. -/
def code : Diagnostic → String
  | unknownKey _ _ _ _ => "spindle::config::unknown_key"
  | invalidType _ _ _ => "spindle::config::invalid_type"
  | missingKey _ => "spindle::config::missing_key"
  | invalid _ => "spindle::config::validation"
  | other _ => "spindle::config::other"

/-- The diagnostic as a sentence. -/
def message : Diagnostic → String
  | unknownKey key _ _ _ => s!"unknown configuration key `{key}`"
  | invalidType key detail _ => s!"invalid type for key `{key}`: {detail}"
  | missingKey key => s!"missing required key `{key}`"
  | invalid problem => s!"validation error: {problem}"
  | other text => s!"configuration error: {text}"

/-- What the user can do about it. -/
def help? : Diagnostic → Option String
  | unknownKey _ suggestion validKeys _ =>
    let keys := ", ".intercalate validKeys
    match suggestion with
    | some key => some s!"did you mean `{key}`? Valid keys: {keys}"
    | none => some s!"valid keys: {keys}"
  | invalidType _ _ expected => some s!"expected {expected}"
  | missingKey key => some s!"add `{key} = <value>` to spindle.toml"
  | invalid _ => none
  | other _ => none

/-- Where an unknown key stands. Only the texts of files are searched, and of several sources with
the path of the file the first counts. -/
def locate (origin : Option Origin) (path : List String) (key : String) (sources : List Source) :
    Option Label :=
  match origin with
  | some (.file file) => do
    let source ← sources.find? (·.path = file)
    let offset ← keyOffset? source.text path key
    return { offset, length := key.utf8ByteSize, source }
  | _ => none

/-- The diagnostic of a failure. -/
def ofFailure (sources : List Source) (failure : Failure) : Diagnostic :=
  match failure.cause with
  | .unknownKey key known =>
    .unknownKey key (suggest? key known) known (locate failure.origin failure.path key sources)
  | .missingKey key => .missingKey key
  | .invalidType found expected =>
    let words := found.words
    .invalidType (".".intercalate failure.path) s!"found {words}, expected {expected}" expected
  | _ => .other failure.words

/-- The diagnostics of a chain of failures, the last failure first. -/
def ofFailures (sources : List Source) (failures : List Failure) : List Diagnostic :=
  failures.reverse.map (ofFailure sources)

theorem length_ofFailures (sources : List Source) (failures : List Failure) :
    (ofFailures sources failures).length = failures.length := by
  simp [ofFailures]

end Diagnostic

end PluginDiscovery.Config
