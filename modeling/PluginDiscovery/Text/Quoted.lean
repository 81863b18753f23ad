import PluginDiscovery.Text.Shapeless

/-!
# Quoted text

Diagnostics show a text in double quotes so that nothing in it can be overlooked: quotes,
backslashes and the common control characters are written with a backslash, and every other
character without a shape of its own is written as the hexadecimal number of its code point.
-/

namespace PluginDiscovery.Text

/-- How one character is written between double quotes. -/
def quoteChar (c : Char) : List Char :=
  match c with
  | '\x00' => ['\\', '0']
  | '\t' => ['\\', 't']
  | '\r' => ['\\', 'r']
  | '\n' => ['\\', 'n']
  | '"' => ['\\', '"']
  | '\\' => ['\\', '\\']
  | _ =>
    if isExtender c || isInvisible c then
      "\\u\x7b".toList ++ Nat.toDigits 16 c.toNat ++ ['\x7d']
    else [c]

/-- A text in double quotes. -/
def quote (text : String) : String :=
  String.ofList ('"' :: text.toList.flatMap quoteChar ++ ['"'])

/-- A list of texts, each in double quotes, within brackets. -/
def quoteList (texts : List String) : String :=
  "[" ++ ", ".intercalate (texts.map quote) ++ "]"

end PluginDiscovery.Text
