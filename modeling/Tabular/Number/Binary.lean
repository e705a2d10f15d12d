/-!
# Doubles as exact integers

A finite double is a sign and a natural number scaled by a power of two. Rounding, truncation and
order are computed on these integers, so that each has a definition that can be unfolded.
-/
namespace Tabular.Number

/-- The number `mantissa * 2 ^ exponent`. -/
structure Binary where
  mantissa : Nat
  exponent : Int
  deriving DecidableEq, Repr

def isNegative (x : Float) : Bool := Nat.pow 2 63 ≤ x.toBits.toNat

def magnitude (x : Float) : Binary :=
  let bits : Nat := x.toBits.toNat
  let fraction : Nat := bits % Nat.pow 2 52
  let biased : Nat := bits / Nat.pow 2 52 % Nat.pow 2 11
  if biased = 0 then ⟨fraction, -1074⟩ else ⟨Nat.pow 2 52 + fraction, (biased : Int) - 1075⟩

/-- The scaled integer as a fraction, numerator and denominator. -/
def Binary.fraction (b : Binary) : Nat × Nat :=
  (b.mantissa * Nat.pow 2 b.exponent.toNat, Nat.pow 2 (-b.exponent).toNat)

def wholePart (x : Float) : Nat :=
  let (num, den) := (magnitude x).fraction
  num / den

/-- The least whole number that the magnitude of a finite double does not exceed. -/
def wholeAbove (x : Float) : Nat :=
  let (num, den) := (magnitude x).fraction
  (num + (den - 1)) / den

def isIntegral (x : Float) : Bool :=
  x.isFinite &&
    let (num, den) := (magnitude x).fraction
    num % den == 0

/-- The double of a sign and a whole magnitude; zero keeps its sign. -/
def ofWhole (negative : Bool) (n : Nat) : Float := if negative then - Float.ofNat n else Float.ofNat n

/-- The nearest whole number; halves go away from zero, and the sign is kept even at zero. -/
def roundHalfAway (x : Float) : Float :=
  if x.isFinite then
    let (num, den) := (magnitude x).fraction
    ofWhole (isNegative x) ((2 * num + den) / (2 * den))
  else x

/-- The whole part of a double brought into the range from `low` to `high`. Infinities go to the
ends, and what is not a number to zero. -/
def toIntWithin (low high : Int) (x : Float) : Int :=
  if x.isNaN then 0
  else if x.isFinite then
    let n : Int := wholePart x
    max low (min high (if isNegative x then -n else n))
  else if isNegative x then low else high

end Tabular.Number
