/-!
# Characters of TOML

Which characters may stand where in a TOML document, and what separates its parts: blanks within a
line, the ends of lines, and comments.
-/

namespace PluginDiscovery.Toml

/-- A blank within a line. -/
def isBlank (c : Char) : Bool := c = ' ' || c = '\t'

/-- A character that is visible or a space or not ASCII. -/
def isVisible (c : Char) : Bool := (0x20 ≤ c.toNat && c.toNat ≤ 0x7E) || 0x80 ≤ c.toNat

/-- A character that may stand in a comment. -/
def isCommentChar (c : Char) : Bool := c = '\t' || isVisible c

/-- A character that may stand in a text between double quotes as it is. -/
def isBasicChar (c : Char) : Bool := isCommentChar c && c ≠ '"' && c ≠ '\\'

/-- A character that may stand in a text between single quotes. -/
def isLiteralChar (c : Char) : Bool := isCommentChar c && c ≠ '\x27'

/-- A character of a key without quotes. -/
def isBareKeyChar (c : Char) : Bool := c.isAlphanum || c = '_' || c = '-'

/-- A character of a number, a date or a word. -/
def isTokenChar (c : Char) : Bool := c.isAlphanum || c ∈ ['_', '-', '+', '.', ':']

/-- The text without the blanks at its start. -/
def skipBlanks (text : List Char) : List Char := text.dropWhile isBlank

/-- The text after the end of a line at its start. -/
def skipNewline : List Char → Option (List Char)
  | '\n' :: rest => some rest
  | '\r' :: '\n' :: rest => some rest
  | _ => none

/-- The text without blanks, ends of lines and comments at its start; it may start in the middle of
a comment. -/
def skipFiller (inComment : Bool) : List Char → List Char
  | [] => []
  | '\n' :: rest => skipFiller false rest
  | '\r' :: '\n' :: rest => skipFiller false rest
  | c :: rest =>
    if inComment && isCommentChar c then skipFiller true rest
    else if isBlank c then skipFiller false rest
    else if c = '#' then skipFiller true rest
    else c :: rest

/-- The text after the rest of a line, on which there may be blanks and a comment. -/
def finishLine (text : List Char) : Option (List Char) :=
  let rest :=
    match skipBlanks text with
    | '#' :: comment => comment.dropWhile isCommentChar
    | rest => rest
  if rest.isEmpty then some [] else skipNewline rest

end PluginDiscovery.Toml
