import PluginDiscovery.Text.Numeral
import PluginDiscovery.Text.Reader
import PluginDiscovery.Toml.Lexical

/-!
# Texts in TOML

A text stands between double quotes, where a backslash starts an escape, or between single quotes,
where it does not. Three quotes on either side allow it to go over several lines; a line end right
after the opening quotes is dropped, and every other one counts as a line feed.
-/

namespace PluginDiscovery.Toml

open PluginDiscovery.Text (Reader)
open PluginDiscovery.Text.Reader (prepend)

/-- The character whose code point is given in hexadecimal. -/
def codePoint? (digits : List Char) : Option Char := Text.hexNumber? digits >>= Text.charOf?

/-- The character that a backslash and a letter stand for. -/
def escape? : Char → Option Char
  | 'b' => some '\x08'
  | 't' => some '\t'
  | 'n' => some '\n'
  | 'f' => some '\x0C'
  | 'r' => some '\r'
  | '"' => some '"'
  | '\\' => some '\\'
  | _ => none

/-- Reads a text up to and including the closing double quote. -/
def basicText : Reader (List Char)
  | [] => none
  | '"' :: rest => some ([], rest)
  | '\\' :: 'u' :: a :: b :: c :: d :: rest => prepend (codePoint? [a, b, c, d]) (basicText rest)
  | '\\' :: 'U' :: a :: b :: c :: d :: e :: f :: g :: h :: rest =>
    prepend (codePoint? [a, b, c, d, e, f, g, h]) (basicText rest)
  | '\\' :: c :: rest => prepend (escape? c) (basicText rest)
  | c :: rest => if isBasicChar c then prepend (some c) (basicText rest) else none

/-- Reads a text up to and including the closing single quote. -/
def literalText : Reader (List Char)
  | [] => none
  | c :: rest =>
    if c = '\x27' then some ([], rest)
    else if isLiteralChar c then prepend (some c) (literalText rest)
    else none

/-- What three closing quotes leave of a text: up to two more quotes before them belong to it. -/
def closing (quote : Char) : List Char → List Char × List Char
  | a :: b :: rest =>
    if a = quote then if b = quote then ([quote, quote], rest) else ([quote], b :: rest)
    else ([], a :: b :: rest)
  | [a] => if a = quote then ([quote], []) else ([], [a])
  | [] => ([], [])

/-- Whether a backslash before this text stands at the end of its line. -/
def endsLine (text : List Char) : Bool := (skipNewline (skipBlanks text)).isSome

/-- Reads a text of several lines up to and including three double quotes. After a backslash at the
end of a line, blanks and line ends are skipped. -/
def basicLines (skipping : Bool) : Reader (List Char)
  | [] => none
  | '"' :: '"' :: '"' :: rest => some (closing '"' rest)
  | '\r' :: '\n' :: rest =>
    if skipping then basicLines true rest else prepend (some '\n') (basicLines false rest)
  | '\n' :: rest =>
    if skipping then basicLines true rest else prepend (some '\n') (basicLines false rest)
  | '\\' :: 'u' :: a :: b :: c :: d :: rest =>
    prepend (codePoint? [a, b, c, d]) (basicLines false rest)
  | '\\' :: 'U' :: a :: b :: c :: d :: e :: f :: g :: h :: rest =>
    prepend (codePoint? [a, b, c, d, e, f, g, h]) (basicLines false rest)
  | '\\' :: c :: rest =>
    if endsLine (c :: rest) then basicLines true (c :: rest)
    else prepend (escape? c) (basicLines false rest)
  | c :: rest =>
    if skipping && isBlank c then basicLines true rest
    else if isBasicChar c || c = '"' then prepend (some c) (basicLines false rest)
    else none

/-- Reads a text of several lines up to and including three single quotes. -/
def literalLines : Reader (List Char)
  | [] => none
  | '\x27' :: '\x27' :: '\x27' :: rest => some (closing '\x27' rest)
  | '\r' :: '\n' :: rest => prepend (some '\n') (literalLines rest)
  | '\n' :: rest => prepend (some '\n') (literalLines rest)
  | c :: rest =>
    if isLiteralChar c || c = '\x27' then prepend (some c) (literalLines rest) else none

/-- The text without a line end at its start. -/
def dropNewline (text : List Char) : List Char := (skipNewline text).getD text

/-- Reads a text on one line, quotes included. -/
def shortText : Reader (List Char)
  | '"' :: rest => basicText rest
  | '\x27' :: rest => literalText rest
  | _ => none

/-- Reads a text, quotes included. -/
def anyText : Reader (List Char)
  | '"' :: '"' :: '"' :: rest => basicLines false (dropNewline rest)
  | '\x27' :: '\x27' :: '\x27' :: rest => literalLines (dropNewline rest)
  | text => shortText text

end PluginDiscovery.Toml
