import PluginDiscovery.Toml.Moment
import PluginDiscovery.Toml.Number
import PluginDiscovery.Toml.Text
import PluginDiscovery.Toml.Value

/-!
# TOML documents

Reading a document gives the table that it describes, or nothing if the text is no TOML 1.0
document. Two limits keep the values small: lists and inline tables are nested less than eighty
deep, and a dotted key has less than eighty parts.
-/

namespace PluginDiscovery.Toml

open PluginDiscovery.Text (Reader)

/-- Lists and inline tables are nested, and dotted keys are long, less than this. -/
def depthLimit : Nat := 80

/-! ## Keys -/

/-- Reads a key without dots. -/
def simpleKey : Reader String := fun text =>
  match text.takeWhile isBareKeyChar with
  | [] => (shortText text).map fun (key, rest) => (String.ofList key, rest)
  | key => some (String.ofList key, text.drop key.length)

/-- Reads a key without dots and the blanks around it. -/
def spacedKey : Reader String := fun text =>
  (simpleKey (skipBlanks text)).map fun (key, rest) => (key, skipBlanks rest)

/-- Reads a dotted key: the path before its last part, and that part. -/
def dottedKey : Reader (List String × String) := fun text => do
  let (parts, rest) ← Reader.separated spacedKey '.' text
  let key ← parts.getLast?
  if parts.length < depthLimit then some ((parts.dropLast, key), rest) else none

/-! ## Values -/

/-- The value that a number, a date or a word stands for. -/
def tokenValue? (token : List Char) : Option Value :=
  if token = "true".toList then some (.flag true)
  else if token = "false".toList then some (.flag false)
  else if isMoment token then some (.moment (String.ofList token))
  else (real? token).map .real <|> (integer? token).map .integer

/-- Reads a number, a date or a word. A date and a time may also have a space between them. -/
def tokenValue : Reader Value := fun text =>
  let token := text.takeWhile isTokenChar
  let rest := text.drop token.length
  let time := (rest.drop 1).takeWhile isTokenChar
  if isDate token && rest.head? = some ' ' && isTimeWithOffset time then
    some (.moment (String.ofList (token ++ ' ' :: time)), rest.drop (time.length + 1))
  else (tokenValue? token).map fun value => (value, rest)

/-- Reads a key and its value. -/
def keyValue (value : Reader Value) : Reader (List String × String × Value) := fun text => do
  let ((path, key), rest) ← dottedKey text
  let rest ← Reader.skipChar '=' rest
  let (value, rest) ← value (skipBlanks rest)
  return ((path, key, value), rest)

/-- Reads a key and its value in an inline table, and the blanks after them. -/
def inlineKeyValue (value : Reader Value) : Reader (List String × String × Value) := fun text =>
  (keyValue value text).map fun (entry, rest) => (entry, skipBlanks rest)

/-- The value of the keys of an inline table. -/
def inlineTable? (keys : List (List String × String × Value)) : Option Value :=
  (keys.foldlM (fun entries (path, key, value) => Entries.add path key value entries) []).map
    fun entries => .table (finishEntries entries)

/-- Reads an inline table after its opening brace. -/
def inlineTable (value : Reader Value) : Reader Value := fun text =>
  match Reader.skipChar '\x7d' (skipBlanks text) with
  | some rest => some (.table [], rest)
  | none => do
    let (keys, rest) ← Reader.separated (inlineKeyValue value) ',' text
    let rest ← Reader.skipChar '\x7d' rest
    return (← inlineTable? keys, rest)

/-- Reads a value in which lists and inline tables are nested so deep at most. -/
def value : (nesting : Nat) → Reader Value
  | nesting, '[' :: rest =>
    match nesting with
    | 0 => none
    | nesting + 1 =>
      (Reader.listed (value nesting) (skipFiller false) ']' rest).map
        fun (items, rest) => (.list items, rest)
  | nesting, '\x7b' :: rest =>
    match nesting with
    | 0 => none
    | nesting + 1 => inlineTable (value nesting) rest
  | _, '"' :: rest =>
    (anyText ('"' :: rest)).map fun (text, rest) => (.text (String.ofList text), rest)
  | _, '\x27' :: rest =>
    (anyText ('\x27' :: rest)).map fun (text, rest) => (.text (String.ofList text), rest)
  | _, text => tokenValue text

/-! ## Documents -/

/-- What has been read of a document. -/
structure Draft where
  /-- The table that was opened last, as a path from the document. -/
  opened : List String := []
  /-- The entries of the document. -/
  entries : Entries := []

/-- Reads a header, its first bracket apart. -/
def headerLine (draft : Draft) (text : List Char) : Option (Draft × List Char) :=
  match text with
  | '[' :: text => do
    let ((path, key), rest) ← dottedKey text
    let rest ← Reader.skipChar ']' rest
    let rest ← Reader.skipChar ']' rest
    return (⟨path ++ [key], ← Entries.openNext path key draft.entries⟩, rest)
  | text => do
    let ((path, key), rest) ← dottedKey text
    let rest ← Reader.skipChar ']' rest
    return (⟨path ++ [key], ← Entries.openTable path key draft.entries⟩, rest)

/-- Reads one line, its end apart. -/
def line (draft : Draft) (text : List Char) : Option (Draft × List Char) :=
  match text with
  | [] => some (draft, [])
  | '[' :: rest => headerLine draft rest
  | c :: rest =>
    if c = '#' || c = '\n' || c = '\r' then some (draft, c :: rest)
    else do
      let ((path, key, value), rest) ← keyValue (value (depthLimit - 1)) (c :: rest)
      return ({ draft with entries := ← Entries.addTo draft.opened path key value draft.entries },
        rest)

/-- Reads lines to the end of the text. -/
def lines (draft : Draft) (text : List Char) : Option Draft :=
  if text.isEmpty then some draft
  else do
    let (draft, rest) ← line draft (skipBlanks text)
    let rest ← finishLine rest
    if _h : rest.length < text.length then lines draft rest else none
termination_by text.length

/-- Reads a document. A byte order mark at its start is skipped. -/
def document? (text : String) : Option (List (String × Value)) :=
  let body :=
    match text.toList with
    | '\uFEFF' :: rest => rest
    | rest => rest
  (lines {} body).map fun draft => finishEntries draft.entries

end PluginDiscovery.Toml
