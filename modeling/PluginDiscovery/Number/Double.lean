/-!
# Double-precision numbers, exactly

A double-precision number is kept by value: a sign, a whole significand below 2^53 and a power of
two. What lies between two such numbers is rounded to the nearest one, a tie going to the even
significand. A decimal is read by rounding its exact value. All arithmetic is on whole numbers.
-/

namespace PluginDiscovery

/-- A double-precision number. A finite one is `± significand · 2 ^ exponent`, where the significand
has 53 bits or the exponent is the least one, `-1074`. -/
inductive Double where
  /-- Not a number. -/
  | nan
  /-- One of the infinities. -/
  | infinite (negative : Bool)
  /-- A finite number. -/
  | finite (negative : Bool) (significand : Nat) (exponent : Int)
deriving DecidableEq, Repr

namespace Double

/-! ## Rounding -/

/-- The quotient of two numbers, rounded to the nearest whole number and on a tie to the even one.
-/
def roundDiv (num den : Nat) : Nat :=
  let quotient := num / den
  let twice := 2 * (num % den)
  if twice < den then quotient
  else if twice = den then quotient + quotient % 2
  else quotient + 1

/-- The number nearest to `± num / den`, for positive `num` and `den`. -/
def ofQuotient (negative : Bool) (num den : Nat) : Double :=
  let scaled (exponent : Int) : Nat × Nat :=
    if 0 ≤ exponent then (num, den <<< exponent.toNat) else (num <<< (-exponent).toNat, den)
  let guess : Int := (num.log2 : Int) - (den.log2 : Int) - 52
  let (guessNum, guessDen) := scaled guess
  let exponent := max (if guessNum / guessDen < 1 <<< 52 then guess - 1 else guess) (-1074)
  let (exactNum, exactDen) := scaled exponent
  let significand := roundDiv exactNum exactDen
  let (significand, exponent) :=
    if significand = 1 <<< 53 then (1 <<< 52, exponent + 1) else (significand, exponent)
  if 971 < exponent then infinite negative else finite negative significand exponent

/-- The number nearest to `± num / den · 2 ^ exponent`, for positive `den`. -/
def ofScaled (negative : Bool) (num den : Nat) (exponent : Int) : Double :=
  if num = 0 then finite negative 0 (-1074)
  else if 0 ≤ exponent then ofQuotient negative (num <<< exponent.toNat) den
  else ofQuotient negative num (den <<< (-exponent).toNat)

/-- The product of two finite numbers, rounded. -/
def product : Double → Double → Double
  | finite negative m e, finite negative' n f => ofScaled (negative != negative') (m * n) 1 (e + f)
  | _, _ => nan

/-- The quotient of two finite numbers, rounded; the second one is not zero. -/
def quotient : Double → Double → Double
  | finite negative m e, finite negative' n f =>
    if n = 0 then nan else ofScaled (negative != negative') m n (e - f)
  | _, _ => nan

/-- Whether a number is zero, of either sign. -/
def isZero : Double → Bool
  | finite _ significand _ => significand = 0
  | _ => false

/-! ## Reading decimals -/

/-- The number nearest to `± digits · 10 ^ scale`. A decimal point far outside the range of the
format decides the answer without any long arithmetic. -/
def ofDecimal (negative : Bool) (digits : Nat) (scale : Int) : Double :=
  if digits = 0 then finite negative 0 (-1074)
  else
    let magnitude : Int := (Nat.toDigits 10 digits).length + scale
    if 310 < magnitude then infinite negative
    else if magnitude < -330 then finite negative 0 (-1074)
    else if 0 ≤ scale then ofQuotient negative (digits * Nat.pow 10 scale.toNat) 1
    else ofQuotient negative digits (Nat.pow 10 (-scale).toNat)

end Double

end PluginDiscovery
