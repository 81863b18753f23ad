import PluginDiscovery.Text.Blank

/-!
# Positions of keys

Where a key stands in the text of a configuration file, as an offset in bytes. The key of a section
is looked for after the first occurrence of the section's header. A line gives the key if, its
leading blanks apart, it starts with the key and goes on with a space, a tab or an equals sign. The
rest of the line that the header is in counts as a line too.
-/

namespace PluginDiscovery.Config

/-- The length of a text in bytes of UTF-8. -/
def byteLength (text : List Char) : Nat := text.foldr (fun c length => c.utf8Size + length) 0

/-- What follows the first occurrence of a text in another, and the offset at which it starts. -/
def after? (part : List Char) : List Char → Option (Nat × List Char)
  | [] => if part.isEmpty then some (0, []) else none
  | c :: rest =>
    if part.isPrefixOf (c :: rest) then some (byteLength part, (c :: rest).drop part.length)
    else (after? part rest).map fun (offset, left) => (offset + c.utf8Size, left)

/-- The lines of a text, each with the line feed that ends it. -/
def linesOf : List Char → List (List Char)
  | [] => []
  | c :: rest =>
    if c = '\n' then [c] :: linesOf rest
    else
      match linesOf rest with
      | [] => [[c]]
      | line :: lines => (c :: line) :: lines

/-- The offset of a key in a line that gives it. -/
def offsetIn? (key line : List Char) : Option Nat :=
  let body := Text.trimStart line
  if key.isPrefixOf body then
    match body.drop key.length with
    | ' ' :: _ | '=' :: _ | '\t' :: _ => some (byteLength line - byteLength body)
    | _ => none
  else none

/-- The offset of a key in the first of some lines that gives it; the lines start at an offset. -/
def offsetFrom? (key : List Char) (offset : Nat) : List (List Char) → Option Nat
  | [] => none
  | line :: rest =>
    match offsetIn? key line with
    | some inLine => some (offset + inLine)
    | none => offsetFrom? key (offset + byteLength line) rest

/-- The header of a section. -/
def header (tableName : String) : List Char := '[' :: tableName.toList ++ [']']

/-- The offset of the key of a path, if it can be found. The first component of the path names the
section that the key is in; without components the key is looked for in the whole text. -/
def keyOffset? (content : String) (path : List String) (key : String) : Option Nat :=
  match path with
  | [] => offsetFrom? key.toList 0 (linesOf content.toList)
  | tableName :: _ => do
    let (offset, rest) ← after? (header tableName) content.toList
    offsetFrom? key.toList offset (linesOf rest)

end PluginDiscovery.Config
