import PluginDiscovery.Json.Basic
import PluginDiscovery.Number.Decimal
import PluginDiscovery.Text.Quoted

/-!
# Reading JSON values

Readers turn a value into something more definite or say why they cannot. A record is read either
from an object, whose members are visited in order and may hold more than the record asks for, or
from an array of its fields in their declared order.
-/

namespace PluginDiscovery.Json

/-- Why a value cannot be read. -/
inductive ReadError where
  /-- A value of the wrong type; both sides are given in words. -/
  | invalidType (found expected : String)
  /-- A value of the right type that does not fit. -/
  | invalidValue (found expected : String)
  /-- An array that ends too early. -/
  | tooShort (length : Nat) (expected : String)
  /-- An array that goes on after the last field. -/
  | tooLong (length : Nat)
  /-- A field that has to be there and is not. -/
  | missingField (name : String)
  /-- A field that is given twice. -/
  | duplicateField (name : String)
  /-- A word that is not one of those known. -/
  | unknownVariant (found : String) (known : List String)
deriving DecidableEq, Repr

/-- A name between backticks. -/
def ticked (name : String) : String := s!"`{name}`"

namespace ReadError

/-- The error as a sentence. -/
def message : ReadError → String
  | invalidType found expected => s!"invalid type: {found}, expected {expected}"
  | invalidValue found expected => s!"invalid value: {found}, expected {expected}"
  | tooShort length expected => s!"invalid length {length}, expected {expected}"
  | tooLong length => s!"invalid length {length}, expected fewer elements in array"
  | missingField name => s!"missing field {ticked name}"
  | duplicateField name => s!"duplicate field {ticked name}"
  | unknownVariant found known =>
    let choices := ", ".intercalate (known.map ticked)
    s!"unknown variant {ticked found}, expected one of {choices}"

end ReadError

/-- Numbers of which the first digit stands at a power of ten from -5 to 15 are written without an
exponent and always show a point; of two equally near decimals the even one is taken. -/
def numberStyle : Double.Style where
  tie := .even
  isPositional power := -5 ≤ power && power ≤ 15
  pointZero := true

/-- A value in a few words, for errors. -/
def describe : Json → String
  | null => "null"
  | bool value => s!"boolean `{value}`"
  | integer value => s!"integer `{value}`"
  | real value =>
    let text := value.text numberStyle
    s!"floating point `{text}`"
  | string value => "string " ++ Text.quote value
  | array _ => "sequence"
  | object _ => "map"

/-- The error for a value that is not what was expected. -/
def mismatch (value : Json) (expected : String) : Except ReadError α :=
  .error (.invalidType value.describe expected)

/-- Reads a text. -/
def toText : Json → Except ReadError String
  | string value => .ok value
  | value => value.mismatch "a string"

/-- Reads a truth value. -/
def toBool : Json → Except ReadError Bool
  | bool value => .ok value
  | value => value.mismatch "a boolean"

/-- Reads a list of texts. -/
def toTexts : Json → Except ReadError (List String)
  | array items => items.mapM toText
  | value => value.mismatch "a sequence"

/-- Reads `null` as nothing and any other value by a reader. -/
def toOption (read : Json → Except ReadError α) : Json → Except ReadError (Option α)
  | null => .ok none
  | value => some <$> read value

/-- Puts a field that has just been read into a place that must still be empty. -/
def fill (name : String) (place : Option α) (value : Except ReadError α) :
    Except ReadError (Option α) :=
  match place with
  | none => some <$> value
  | some _ => .error (.duplicateField name)

/-- A field that has to be there. -/
def required (name : String) : Option α → Except ReadError α
  | none => .error (.missingField name)
  | some value => .ok value

end PluginDiscovery.Json
