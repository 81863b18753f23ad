import PluginDiscovery.Number.Double
import PluginDiscovery.Text.Numeral

/-!
# Numbers in TOML

A number is a whole number in one of four bases, which must fit into 64 bits with a sign, or a
decimal with a fraction or an exponent, or one of the words for infinity and for what is no number.
Underscores may separate digits. A decimal so large that it would round to positive infinity is
refused.
-/

namespace PluginDiscovery.Toml

open PluginDiscovery.Text (cutWhere isHexDigit splitSign valueIn)

/-- The digits of a text in which single underscores may stand between digits. -/
def digits? (isDigit : Char → Bool) (text : List Char) : Option (List Char) :=
  let groups := text.splitOn '_'
  if groups.all fun group => !group.isEmpty && group.all isDigit then some groups.flatten else none

/-- The digits of a decimal number without a leading zero. -/
def plainDigits? (text : List Char) : Option (List Char) :=
  match digits? Char.isDigit text with
  | some ('0' :: _ :: _) => none
  | digits => digits

/-- A whole number that fits into 64 bits with a sign. -/
def fit? (value : Int) : Option Int :=
  if Int64.minValue.toInt ≤ value && value ≤ Int64.maxValue.toInt then some value else none

/-- Reads a whole number. -/
def integer? (text : List Char) : Option Int :=
  match text with
  | '0' :: 'x' :: rest => digits? isHexDigit rest >>= fun digits => fit? (valueIn 16 digits)
  | '0' :: 'o' :: rest =>
    digits? (fun c => '0' ≤ c && c ≤ '7') rest >>= fun digits => fit? (valueIn 8 digits)
  | '0' :: 'b' :: rest =>
    digits? (fun c => c = '0' || c = '1') rest >>= fun digits => fit? (valueIn 2 digits)
  | _ => do
    let (negative, rest) := splitSign text
    let magnitude : Int := valueIn 10 (← plainDigits? rest)
    fit? (if negative then -magnitude else magnitude)

/-- Reads an exponent, which may be missing. -/
def exponent? : Option (List Char) → Option Int
  | none => some 0
  | some text => do
    let (negative, rest) := splitSign text
    let magnitude : Int := valueIn 10 (← digits? Char.isDigit rest)
    return if negative then -magnitude else magnitude

/-- Reads the digits of a fraction, which may be missing. -/
def fraction? : Option (List Char) → Option (List Char)
  | none => some []
  | some text => digits? Char.isDigit text

/-- Reads a number that is not whole. -/
def real? (text : List Char) : Option Double :=
  let (negative, rest) := splitSign text
  if rest = "inf".toList then some (.infinite negative)
  else if rest = "nan".toList then some .nan
  else do
    let (mantissa, exponentText) := cutWhere (fun c => c = 'e' || c = 'E') rest
    let (wholeText, fractionText) := cutWhere (· = '.') mantissa
    if exponentText.isNone && fractionText.isNone then none
    else
      let whole ← plainDigits? wholeText
      let fraction ← fraction? fractionText
      let exponent ← exponent? exponentText
      let value :=
        Double.ofDecimal negative (valueIn 10 (whole ++ fraction)) (exponent - fraction.length)
      if value = .infinite false then none else some value

end PluginDiscovery.Toml
