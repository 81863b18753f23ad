import PluginDiscovery.Json.Reading
import PluginDiscovery.Number.Decimal

/-!
# Failures to read a configuration

Reading settings into a configuration stops at the first value that does not fit. A failure says
what is wrong, at which path, and where the value came from.
-/

namespace PluginDiscovery.Config

/-- Where settings come from. -/
inductive Origin where
  /-- A file, given by its path. -/
  | file (path : String)
  /-- Anything else, given by a name. -/
  | named (name : String)
deriving DecidableEq, Repr

/-- A value in a few words. -/
inductive Found where
  /-- A truth value. -/
  | flag (value : Bool)
  /-- A whole number with a sign. -/
  | signed (value : Int)
  /-- A whole number without a sign. -/
  | unsigned (value : Nat)
  /-- Any other number. -/
  | real (value : Double)
  /-- A text. -/
  | text (value : String)
  /-- A list. -/
  | sequence
  /-- Values under keys. -/
  | map
  /-- Nothing. -/
  | nothing
deriving DecidableEq, Repr

/-- Numbers are written without an exponent, and whole ones without a point; of two equally near
decimals the greater one is taken. -/
def numberStyle : Double.Style where
  tie := .up
  isPositional _ := true
  pointZero := false

/-- The words for a value. -/
def Found.words : Found → String
  | flag value => s!"bool {value}"
  | signed value => s!"signed int `{value}`"
  | unsigned value => s!"unsigned int `{value}`"
  | real value =>
    let text := value.text numberStyle
    s!"float `{text}`"
  | text value => "string " ++ Text.quote value
  | sequence => "sequence"
  | map => "map"
  | nothing => "unit"

/-- What is wrong. -/
inductive Cause where
  /-- A key that is not one of those known. -/
  | unknownKey (key : String) (known : List String)
  /-- A key that has to be there and is not. -/
  | missingKey (key : String)
  /-- A value of the wrong type. -/
  | invalidType (found : Found) (expected : String)
  /-- A value of the right type that does not fit. -/
  | invalidValue (found : Found) (expected : String)
  /-- A list of the wrong length. -/
  | invalidLength (length : Nat) (expected : String)
  /-- A word that is not one of those known. -/
  | unknownWord (found : String) (known : List String)
  /-- A key that is given twice. -/
  | duplicateKey (key : String)
  /-- A number that does not fit into a machine word. -/
  | outOfRange (value : Int)
  /-- Anything else, in words. -/
  | message (text : String)
deriving DecidableEq, Repr

/-- A choice between words. -/
def choice : List String → String
  | [] => "none"
  | [word] => s!"`{word}`"
  | [first, second] => s!"`{first}` or `{second}`"
  | words => "one of " ++ ", ".intercalate (words.map Json.ticked)

/-- A cause as a sentence. -/
def Cause.words : Cause → String
  | unknownKey key known =>
    let expected := choice known
    s!"unknown field: found `{key}`, expected `{expected}`"
  | missingKey key => s!"missing field `{key}`"
  | invalidType found expected =>
    let words := found.words
    s!"invalid type: found {words}, expected {expected}"
  | invalidValue found expected =>
    let words := found.words
    s!"invalid value {words}, expected {expected}"
  | invalidLength length expected => s!"invalid length {length}, expected {expected}"
  | unknownWord found known =>
    let expected := choice known
    s!"unknown variant: found `{found}`, expected `{expected}`"
  | duplicateKey key => s!"duplicate field `{key}`"
  | outOfRange value => s!"signed integer `{value}` is out of range"
  | message text => text

/-- Why a configuration cannot be read. -/
structure Failure where
  /-- What is wrong. -/
  cause : Cause
  /-- The keys that lead to the value. -/
  path : List String := []
  /-- Where the value comes from, if that is known. -/
  origin : Option Origin := none
deriving DecidableEq, Repr

/-- A failure in words: its cause and where the value comes from. -/
def Failure.words (failure : Failure) : String :=
  let cause := failure.cause.words
  match failure.origin with
  | none => cause
  | some (.named name) => s!"{cause} in {name}"
  | some (.file path) => s!"{cause} in {path} TOML file"

/-- What a failure to parse a file starts with. -/
def syntaxErrorText : String := "TOML parse error"

end PluginDiscovery.Config
