import PluginDiscovery.Number.Double

/-!
# JSON values

The values of the data format in which type declarations are exchanged, and the ways in which
reading one as something more definite can fail.
-/

namespace PluginDiscovery

/-- A JSON value. The members of an object are kept in the order in which they are visited. -/
inductive Json where
  /-- The value `null`. -/
  | null
  /-- A truth value. -/
  | bool (value : Bool)
  /-- A whole number. -/
  | integer (value : Int)
  /-- Any other number. -/
  | real (value : Double)
  /-- A text. -/
  | string (value : String)
  /-- A list of values. -/
  | array (items : List Json)
  /-- Values under names. -/
  | object (members : List (String × Json))
deriving Repr, Inhabited

namespace Json

/-- A text or `null`. -/
def ofOption : Option String → Json
  | none => null
  | some text => string text

/-- A list of texts. -/
def ofStrings (texts : List String) : Json := array (texts.map string)

end Json

end PluginDiscovery
