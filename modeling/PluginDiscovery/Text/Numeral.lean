/-!
# Numerals

What the readers of numbers share: the values of digits, and how a text is taken apart at a sign or
at a character.
-/

namespace PluginDiscovery.Text

/-- The value of a hexadecimal digit. -/
def hexValue? (c : Char) : Option Nat :=
  if c.isDigit then some (c.toNat - 48)
  else if 'a' ≤ c && c ≤ 'f' then some (c.toNat - 87)
  else if 'A' ≤ c && c ≤ 'F' then some (c.toNat - 55)
  else none

/-- Whether a character is a hexadecimal digit. -/
def isHexDigit (c : Char) : Bool := (hexValue? c).isSome

/-- The value of digits in a base of at most sixteen. -/
def valueIn (base : Nat) (digits : List Char) : Nat :=
  digits.foldl (fun value c => base * value + (hexValue? c).getD 0) 0

/-- The number that is written with hexadecimal digits. -/
def hexNumber? (digits : List Char) : Option Nat :=
  if digits.all isHexDigit then some (valueIn 16 digits) else none

/-- The character with a code point. -/
def charOf? (code : Nat) : Option Char :=
  if code.isValidChar then some (Char.ofNat code) else none

/-- A sign, which is negative if it is a minus, and the text after it. -/
def splitSign : List Char → Bool × List Char
  | '-' :: rest => (true, rest)
  | '+' :: rest => (false, rest)
  | text => (false, text)

/-- The text before the first character that passes a test and, if there is one, the text after
it. -/
def cutWhere (test : Char → Bool) (text : List Char) : List Char × Option (List Char) :=
  let before := text.takeWhile fun c => !test c
  match text.dropWhile fun c => !test c with
  | [] => (before, none)
  | _ :: after => (before, some after)

end PluginDiscovery.Text
