import PluginDiscovery.Config.Setting
import PluginDiscovery.Text.Blank
import PluginDiscovery.Text.Reader
import PluginDiscovery.Toml.Number
import PluginDiscovery.Toml.Text

/-!
# Settings from the environment

A variable sets a key if its name starts with `SPINDLE_`, in letters of either case. The rest of the
name, in lower case, is the key; its sections are set off by a dot or, for the two known sections,
by an underscore. Blanks around the name and around the key do not count. A name in which a part of
the key is empty is ignored.

The value is read as a truth value, a number, a quoted text, a list or a table if it has the form of
one from beginning to end. Otherwise it is a text as it stands.
-/

namespace PluginDiscovery.Config

open PluginDiscovery.Text (Reader cutWhere splitSign trimEnd trimStart valueIn)

/-! ## Names -/

/-- What the names of variables start with, in lower case. -/
def variableStart : List Char := "spindle_".toList

/-- The text with the first occurrence of a word replaced. -/
def replaceFirst (word replacement : List Char) : List Char → List Char
  | [] => []
  | c :: rest =>
    if word.isPrefixOf (c :: rest) then replacement ++ (c :: rest).drop word.length
    else c :: replaceFirst word replacement rest

/-- The path of keys that a variable sets, if it sets any. -/
def variablePath? (name : String) : Option (List String) :=
  let lower := (trimEnd (trimStart name.toList)).map Char.toLower
  if variableStart.isPrefixOf lower then
    let key := trimStart (lower.drop variableStart.length)
    let key := replaceFirst "discovery_".toList "discovery.".toList key
    let key := replaceFirst "logging_".toList "logging.".toList key
    let parts := key.splitOn '.'
    if parts.all fun part => !part.isEmpty then some (parts.map String.ofList) else none
  else none

/-! ## Values -/

/-- Where settings of the environment come from. -/
def environmentOrigin : Origin := .named "environment"

/-- A single value of the environment. -/
def environmentScalar (value : Scalar) : Setting := .scalar environmentOrigin value

/-- A blank of ASCII, the vertical tab apart. -/
def isSpace (c : Char) : Bool := c = ' ' || c = '\t' || c = '\n' || c = '\r' || c = '\x0C'

/-- The text without the spaces at its start. -/
def skipSpaces (text : List Char) : List Char := text.dropWhile isSpace

/-- A character that ends a value without quotes. -/
def isDelimiter (c : Char) : Bool := c ∈ [',', '\x7b', '\x7d', '[', ']']

/-- The start of a text that fits into so many bytes. -/
def takeBytes : Nat → List Char → List Char
  | _, [] => []
  | limit, c :: rest =>
    if c.utf8Size ≤ limit then c :: takeBytes (limit - c.utf8Size) rest else []

/-- Reads a text up to and including the closing double quote. Of the characters before the first
escape only so many bytes are kept as there are characters; without an escape all are. -/
def quotedText : Reader (List Char) := fun text => do
  let (value, rest) ← Toml.basicText text
  let plain := text.takeWhile Toml.isBasicChar
  if (text.drop plain.length).head? = some '\\' then
    return (takeBytes plain.length plain ++ value.drop plain.length, rest)
  else return (value, rest)

/-- The digits of a decimal, its sign apart: those before the point and those after it. -/
def decimalDigits? (text : List Char) : Option (List Char × List Char) :=
  let (whole, fraction) := cutWhere (· = '.') text
  let fraction := fraction.getD []
  if (whole ++ fraction).all Char.isDigit && !(whole ++ fraction).isEmpty then
    some (whole, fraction)
  else none

/-- Reads a decimal with a point, and an exponent if need be. Digits may be missing on one side of
the point. -/
def decimal? (text : List Char) : Option Double := do
  let (negative, rest) := splitSign text
  let (mantissa, exponentText) := cutWhere (fun c => c = 'e' || c = 'E') rest
  let (whole, fraction) ← decimalDigits? mantissa
  let exponent ← match exponentText with
    | none => some (0 : Int)
    | some exponentText =>
      let (below, digits) := splitSign exponentText
      if digits.all Char.isDigit && !digits.isEmpty then
        let magnitude : Int := valueIn 10 digits
        some (if below then -magnitude else magnitude)
      else none
  return Double.ofDecimal negative (valueIn 10 (whole ++ fraction))
    (exponent - fraction.length)

/-- Reads a whole number of 64 bits, without a sign if possible. -/
def wholeNumber? (text : List Char) : Option Scalar :=
  let (negative, digits) := splitSign text
  if digits.isEmpty || !digits.all Char.isDigit then none
  else
    let magnitude := valueIn 10 digits
    if !negative then if magnitude < UInt64.size then some (.unsigned magnitude) else none
    else if Int64.minValue.toInt ≤ -(magnitude : Int) then some (.signed (-(magnitude : Int)))
    else none

/-- What a value without quotes stands for. -/
def bareScalar (text : List Char) : Scalar :=
  let trimmed := trimEnd (trimStart text)
  let number := if trimmed.contains '.' then (decimal? trimmed).map Scalar.real else none
  (number <|> wholeNumber? trimmed).getD (.text (String.ofList trimmed))

/-- Reads the key of a table. -/
def tableKey : Reader String
  | '"' :: rest => (quotedText rest).map fun (key, rest) => (String.ofList key, rest)
  | text =>
    match text.takeWhile Toml.isBareKeyChar with
    | [] => none
    | key => some (String.ofList key, text.drop key.length)

/-- Reads the items of a list or a table up to and including the closing character. A comma may
stand before it. -/
def delimited {α : Type} (item : Reader α) (close : Char) (text : List Char) :
    Option (List α × List Char) :=
  match Reader.skipChar close text with
  | some rest => some ([], rest)
  | none => do
    let (first, rest) ← item text
    match Reader.skipChar ',' rest with
    | none =>
      let final ← Reader.skipChar close rest
      return ([first], final)
    | some next =>
      if _h : next.length < text.length then
        let (others, final) ← delimited item close next
        return (first :: others, final)
      else none
termination_by text.length

/-- Reads one entry of a table. -/
def tableEntry (value : Reader Setting) : Reader (String × Setting) := fun text => do
  let (key, rest) ← tableKey (skipSpaces text)
  let rest ← Reader.skipChar '=' (skipSpaces rest)
  let (setting, rest) ← value rest
  return ((key, setting), rest)

/-- The table of some entries, of which the last of each key counts. -/
def tableOf (entries : List (String × Setting)) : Setting :=
  .table environmentOrigin (NameMap.ofList entries).entries

/-- Reads a value in which lists and tables are nested so deep at most. The first characters decide
what it must be. -/
def settingWithin : (nesting : Nat) → Reader Setting
  | 0, _ => none
  | nesting + 1, text => do
    let (setting, rest) ← match skipSpaces text with
      | 't' :: 'r' :: 'u' :: 'e' :: rest => some (environmentScalar (.flag true), rest)
      | 'f' :: 'a' :: 'l' :: 's' :: 'e' :: rest => some (environmentScalar (.flag false), rest)
      | '\x7b' :: rest =>
        (delimited (tableEntry (settingWithin nesting)) '\x7d' rest).map
          fun (entries, rest) => (tableOf entries, rest)
      | '[' :: rest =>
        (delimited (settingWithin nesting) ']' rest).map
          fun (items, rest) => (.list environmentOrigin items, rest)
      | '"' :: rest =>
        (quotedText rest).map
          fun (text, rest) => (environmentScalar (.text (String.ofList text)), rest)
      | '\x27' :: c :: '\x27' :: rest =>
        some (environmentScalar (.text (String.ofList [c])), rest)
      | '\x27' :: _ => none
      | text =>
        let bare := text.takeWhile fun c => !isDelimiter c
        some (environmentScalar (bareScalar bare), text.drop bare.length)
    return (setting, skipSpaces rest)

/-- The setting that the value of a variable stands for. -/
def ofVariable (value : String) : Setting :=
  match settingWithin (value.length + 1) value.toList with
  | some (setting, []) => setting
  | _ => environmentScalar (.text value)

/-! ## The whole environment -/

/-- The variables, each set to its last value, in the order in which they were first set. -/
def distinctVariables (environment : List (String × String)) : List (String × String) :=
  environment.foldl
    (fun set (name, value) =>
      if set.any (·.1 = name) then set.map fun old => if old.1 = name then (name, value) else old
      else set ++ [(name, value)])
    []

/-- The settings of an environment; of several variables for one key the last counts. -/
def ofEnvironment (environment : List (String × String)) : Setting :=
  (distinctVariables environment).foldl
    (fun settings (name, value) =>
      match variablePath? name with
      | some path => settings.merge (.nest environmentOrigin path (ofVariable value))
      | none => settings)
    (.table environmentOrigin [])

end PluginDiscovery.Config
