import PluginDiscovery.Number.Double

/-!
# Numbers as decimal text

A number is written with the fewest digits that read back as the same number, and of those with the
digits nearest to it. Two decimals can be equally near; which of them is taken, and how the digits
are laid out, is the style of a text.
-/

namespace PluginDiscovery.Double

/-! ## The fewest digits -/

/-- Which of two equally near decimals is taken. -/
inductive Tie where
  /-- The greater one. -/
  | up
  /-- The one whose last digit is even. -/
  | even
deriving DecidableEq, Repr

/-- A decimal grid, the multiples of `10 ^ place`, seen from quarters of a unit in the last binary
place: `n` quarters of `2 ^ exponent` are `n * num / den` steps of the grid. -/
structure Grid where
  /-- The place of the last decimal digit. -/
  place : Int
  /-- The numerator of a quarter, in steps of the grid. -/
  num : Nat
  /-- The denominator of a quarter, in steps of the grid. -/
  den : Nat

/-- The grid of a decimal place for numbers with a binary exponent. -/
def Grid.of (place exponent : Int) : Grid where
  place := place
  num := Nat.pow 10 (-place).toNat <<< (exponent - 2).toNat
  den := Nat.pow 10 place.toNat <<< (2 - exponent).toNat

/-- The multiple of the grid nearest to `significand`, if it reads back as that number. The numbers
that do lie up to half a unit away, or a quarter below a power of two, and the ends count when the
significand is even. -/
def Grid.nearest? (tie : Tie) (grid : Grid) (significand : Nat) (atPower : Bool) : Option Nat :=
  let exact := 4 * significand * grid.num
  let low := (4 * significand - if atPower then 1 else 2) * grid.num
  let high := (4 * significand + 2) * grid.num
  let readsBack (steps : Nat) : Bool :=
    let point := steps * grid.den
    if significand % 2 = 0 then low ≤ point && point ≤ high else low < point && point < high
  let below := exact / grid.den
  let above := below + 1
  let middle := (below + above) * grid.den
  let belowNearer : Bool :=
    2 * exact < middle || (2 * exact = middle && tie = .even && below % 2 = 0)
  if readsBack below && (!readsBack above || belowNearer) then some below
  else if readsBack above then some above
  else none

/-- The digits of a positive number and the place of the last one, found on the coarsest grid of the
next `tries` grids downward that has a multiple which reads back. -/
def shortestFrom (tie : Tie) (significand : Nat) (exponent : Int) :
    (place : Int) → (tries : Nat) → Nat × Int
  | place, 0 => (significand, place)
  | place, tries + 1 =>
    let grid := Grid.of place exponent
    match grid.nearest? tie significand (significand = 1 <<< 52 && -1074 < exponent) with
    | some digits => (digits, place)
    | none => shortestFrom tie significand exponent (place - 1) tries

/-- The digits of a positive number and the place of the last one. The search starts at a place
above the first digit, and seventeen digits always read back. -/
def shortest (tie : Tie) (significand : Nat) (exponent : Int) : Nat × Int :=
  shortestFrom tie significand exponent
    (((significand.log2 : Int) + exponent + 1) * 30103 / 100000 + 2) 22

/-! ## Layout -/

/-- How numbers are written. -/
structure Style where
  /-- Which of two equally near decimals is taken. -/
  tie : Tie
  /-- Whether a number is written without an exponent, given the power of ten of its first digit.
  -/
  isPositional : Int → Bool
  /-- Whether a point and a zero follow the digits of a whole number. -/
  pointZero : Bool

/-- Digits written without an exponent: zeros fill the places up to the point, and there is no point
when no digit follows it. -/
def positional (digits : List Char) (place : Int) : List Char :=
  if 0 ≤ place then digits ++ List.replicate place.toNat '0'
  else
    let fraction := (-place).toNat
    let padded := List.replicate (fraction + 1 - digits.length) '0' ++ digits
    let whole := padded.length - fraction
    padded.take whole ++ '.' :: padded.drop whole

/-- Digits written with an exponent, which always has a sign: the point follows the first digit, if
there is another one. -/
def scientific (digits : List Char) (power : Int) : List Char :=
  let mantissa :=
    match digits with
    | first :: second :: rest => first :: '.' :: second :: rest
    | digits => digits
  let sign := if power < 0 then '-' else '+'
  mantissa ++ 'e' :: sign :: Nat.toDigits 10 power.natAbs

/-- The text of `digits · 10 ^ place`. -/
def Style.layOut (style : Style) (digits : Nat) (place : Int) : String :=
  let text := Nat.toDigits 10 digits
  let power := place + text.length - 1
  let body :=
    if style.isPositional power then
      positional text place ++ if style.pointZero && 0 ≤ place then ['.', '0'] else []
    else scientific text power
  String.ofList body

/-- The number as text. -/
def text (style : Style) : Double → String
  | nan => "NaN"
  | infinite negative => if negative then "-inf" else "inf"
  | finite negative significand exponent =>
    let sign := if negative then "-" else ""
    if significand = 0 then sign ++ style.layOut 0 0
    else
      let (digits, place) := shortest style.tie significand exponent
      sign ++ style.layOut digits place

end PluginDiscovery.Double
