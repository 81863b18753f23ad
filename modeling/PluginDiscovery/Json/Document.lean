import PluginDiscovery.Json.Basic
import PluginDiscovery.NameMap
import PluginDiscovery.Text.Numeral
import PluginDiscovery.Text.Reader

/-!
# JSON documents

Reading a document gives the value that it describes, or nothing if the text is no JSON document.
The members of an object are put in increasing order of their names, and of several members of one
name the last counts. Lists and objects are nested less than 128 deep.

A number is whole if it is written without a fraction and an exponent and fits into 64 bits. Any
other number is computed in double precision from its digits, in two steps that both round.
-/

namespace PluginDiscovery.Json

open PluginDiscovery.Text (Reader hexNumber? charOf?)
open PluginDiscovery.Text.Reader (prepend separated skipChar)

/-- A blank between the parts of a document. -/
def isSpace (c : Char) : Bool := c = ' ' || c = '\t' || c = '\n' || c = '\r'

/-- The text without the blanks at its start. -/
def skipSpaces (text : List Char) : List Char := text.dropWhile isSpace

/-! ## Texts -/

/-- The character that a backslash and a character stand for. -/
def escape? : Char → Option Char
  | '"' => some '"'
  | '\\' => some '\\'
  | '/' => some '/'
  | 'b' => some '\x08'
  | 'f' => some '\x0C'
  | 'n' => some '\n'
  | 'r' => some '\r'
  | 't' => some '\t'
  | _ => none

/-- The character of two surrogates. -/
def paired? (high low : Nat) : Option Char :=
  if 0xDC00 ≤ low && low < 0xE000 then
    charOf? (0x10000 + (high - 0xD800) * 0x400 + (low - 0xDC00))
  else none

/-- Reads a text up to and including the closing quote. A character may be written as two surrogates
in a row; `high` is the first of them if the second must follow. -/
def quotedText (high : Option Nat) : Reader (List Char)
  | [] => none
  | '\\' :: 'u' :: a :: b :: c :: d :: rest => do
    let code ← hexNumber? [a, b, c, d]
    match high with
    | some high => prepend (paired? high code) (quotedText none rest)
    | none =>
      if 0xD800 ≤ code && code < 0xDC00 then quotedText (some code) rest
      else prepend (charOf? code) (quotedText none rest)
  | '\\' :: c :: rest =>
    if high.isSome then none else prepend (escape? c) (quotedText none rest)
  | c :: rest =>
    if high.isSome then none
    else if c = '"' then some ([], rest)
    else if c.toNat < 0x20 then none
    else prepend (some c) (quotedText none rest)

/-! ## Numbers -/

/-- A number as it is written. -/
structure Numeral where
  /-- Whether it starts with a minus sign. -/
  negative : Bool
  /-- The digits before the point. -/
  whole : List Char
  /-- The digits after the point, if there is one. -/
  fraction : Option (List Char)
  /-- The exponent, if there is one. -/
  exponent : Option Int

/-- Appends digits to a number until the next one would take it beyond 64 bits; gives the number and
how many digits are left. -/
def appendDigits (value : Nat) : List Char → Nat × Nat
  | [] => (value, 0)
  | digit :: rest =>
    let longer := 10 * value + Text.valueIn 10 [digit]
    if longer < UInt64.size then appendDigits longer rest else (value, rest.length + 1)

/-- The number nearest to a power of ten. -/
def tenTo (power : Nat) : Double := Double.ofDecimal false 1 power

/-- A number multiplied by a power of ten or, if the power is negative, divided by one. Each step
rounds; a result beyond all finite numbers is refused. -/
def timesTenTo? (value : Double) (power : Int) : Option Double :=
  if power < -308 then
    if value.isZero then some value else timesTenTo? (value.quotient (tenTo 308)) (power + 308)
  else if power < 0 then some (value.quotient (tenTo (-power).toNat))
  else if power ≤ 308 then
    match value.product (tenTo power.toNat) with
    | .infinite _ => none
    | product => some product
  else if value.isZero then some value
  else none
termination_by (-power).toNat

/-- What a number stands for. Digits beyond the precision of 64 bits do not count, except for the
place of the point. -/
def Numeral.value? (n : Numeral) : Option Json :=
  let fraction := n.fraction.getD []
  let (start, wholeLeft) := appendDigits 0 n.whole
  let (digits, fractionLeft) := appendDigits start fraction
  let isWhole := n.fraction.isNone && n.exponent.isNone && wholeLeft = 0
  if isWhole && !n.negative then some (integer digits)
  else if isWhole && 0 < digits && Int64.minValue.toInt ≤ -digits then some (integer (-digits))
  else
    let power : Int := wholeLeft + fractionLeft - fraction.length + n.exponent.getD 0
    (timesTenTo? (.ofScaled n.negative digits 1 0) power).map real

/-- Reads one or more digits. -/
def digits : Reader (List Char) := fun text =>
  match text.takeWhile Char.isDigit with
  | [] => none
  | found => some (found, text.drop found.length)

/-- Reads a fraction, which may be missing. -/
def fraction : Reader (Option (List Char))
  | '.' :: rest => (digits rest).map fun (found, rest) => (some found, rest)
  | text => some (none, text)

/-- Reads an exponent, which may be missing. -/
def exponent : Reader (Option Int) := fun text =>
  match text with
  | [] => some (none, [])
  | c :: rest =>
    if c = 'e' || c = 'E' then do
      let (negative, rest) := Text.splitSign rest
      let (found, rest) ← digits rest
      let magnitude : Int := Text.valueIn 10 found
      return (some (if negative then -magnitude else magnitude), rest)
    else some (none, text)

/-- Reads a number. Before the point there is no leading zero. -/
def number : Reader Json := fun text => do
  let (negative, rest) :=
    match text with
    | '-' :: rest => (true, rest)
    | text => (false, text)
  let (whole, rest) ← digits rest
  if 1 < whole.length && whole.head? = some '0' then none
  else
    let (fraction, rest) ← fraction rest
    let (exponent, rest) ← exponent rest
    let value ← Numeral.value? { negative, whole, fraction, exponent }
    return (value, rest)

/-! ## Values -/

/-- Lists and objects are nested less than this. -/
def depthLimit : Nat := 128

/-- Reads an item and the blanks around it. -/
def spaced {α : Type} (item : Reader α) : Reader α := fun text => do
  let (value, rest) ← item (skipSpaces text)
  return (value, skipSpaces rest)

/-- Reads items with commas between them up to and including a closing character. -/
def items {α : Type} (item : Reader α) (close : Char) : Reader (List α) := fun text =>
  match skipChar close (skipSpaces text) with
  | some rest => some ([], rest)
  | none => do
    let (found, rest) ← separated (spaced item) ',' text
    let rest ← skipChar close rest
    return (found, rest)

/-- Reads a member of an object. -/
def member (value : Reader Json) : Reader (String × Json) := fun text => do
  let rest ← skipChar '"' text
  let (name, rest) ← quotedText none rest
  let rest ← skipChar ':' (skipSpaces rest)
  let (value, rest) ← value (skipSpaces rest)
  return ((String.ofList name, value), rest)

/-- The object of some members, of which the last of each name counts. -/
def ofMembers (members : List (String × Json)) : Json := object (NameMap.ofList members).entries

/-- Reads a value in which less than so many lists and objects are nested. -/
def value : (nesting : Nat) → Reader Json
  | _, 'n' :: 'u' :: 'l' :: 'l' :: rest => some (null, rest)
  | _, 't' :: 'r' :: 'u' :: 'e' :: rest => some (bool true, rest)
  | _, 'f' :: 'a' :: 'l' :: 's' :: 'e' :: rest => some (bool false, rest)
  | _, '"' :: rest =>
    (quotedText none rest).map fun (text, rest) => (string (.ofList text), rest)
  | nesting + 1, '[' :: rest =>
    (items (value nesting) ']' rest).map fun (found, rest) => (array found, rest)
  | nesting + 1, '\x7b' :: rest =>
    (items (member (value nesting)) '\x7d' rest).map fun (found, rest) => (ofMembers found, rest)
  | _, text => number text

/-- Reads a document. -/
def document? (text : String) : Option Json :=
  match spaced (value (depthLimit - 1)) text.toList with
  | some (value, []) => some value
  | _ => none

end PluginDiscovery.Json
