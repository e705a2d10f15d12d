import Tabular.Document.Basic

/-!
# Numbers in documents

A number is an optional sign, a whole part without leading zeros, an optional fraction and an
optional exponent. Its digits are taken into one natural number as long as that stays below
`2 ^ 64`. Digits of the whole part that no longer fit only raise the exponent, and such digits of
the fraction are dropped. The natural number is then scaled by the power of ten in doubles.
-/
namespace Tabular.Document

/-- The greatest natural number that digits are gathered into. -/
def maxSignificand : Nat := UInt64.size - 1

/-- Appends digits to a number while it stays small enough, and returns those left. -/
def gather (n : Nat) : List Char → Nat × List Char
  | [] => (n, [])
  | c :: cs =>
    let next := 10 * n + (c.toNat - '0'.toNat)
    if next ≤ maxSignificand then gather next cs else (n, c :: cs)

/-- Multiplies a number by a power of ten. One that becomes too large has no value; one that
becomes too small is zero. -/
def scale? (x : Float) (exponent : Int) : Option Float :=
  if x == 0.0 then some x
  else if exponent < -308 then scale? (x / Number.Decimal.toFloat ⟨1, 308⟩) (exponent + 308)
  else if exponent < 0 then some (x / Number.Decimal.toFloat ⟨1, -exponent⟩)
  else if exponent ≤ 308 then
    some (x * Number.Decimal.toFloat ⟨1, exponent⟩) |>.filter Float.isFinite
  else none
termination_by (-exponent).toNat
decreasing_by omega

/-- The magnitude of a number with the given digits and exponent. -/
def magnitude? (whole fraction : List Char) (exponent : Int) : Option Float :=
  let left := gather 0 whole
  let right := gather left.1 fraction
  let places : Int := fraction.length - right.2.length
  scale? (Float.ofNat right.1) (left.2.length - places + exponent)

/-- Reads digits behind a point, if there is one. -/
def readFraction? : List Char → Option (List Char × List Char)
  | '.' :: cs =>
    let digits := cs.takeWhile Char.isDigit
    if digits = [] then none else some (digits, cs.dropWhile Char.isDigit)
  | cs => some ([], cs)

def readExponentDigits? (negative : Bool) (cs : List Char) : Option (Int × List Char) :=
  let digits := cs.takeWhile Char.isDigit
  let value : Int := Number.digitsValue digits
  if digits = [] then none
  else some (if negative then -value else value, cs.dropWhile Char.isDigit)

def readSignedExponent? : List Char → Option (Int × List Char)
  | '-' :: cs => readExponentDigits? true cs
  | '+' :: cs => readExponentDigits? false cs
  | cs => readExponentDigits? false cs

/-- Reads an exponent, if there is one. -/
def readExponent? : List Char → Option (Int × List Char)
  | 'e' :: cs => readSignedExponent? cs
  | 'E' :: cs => readSignedExponent? cs
  | cs => some (0, cs)

def readMagnitude? (cs : List Char) : Option (Float × List Char) := do
  let whole := cs.takeWhile Char.isDigit
  if whole = [] ∨ (whole.head? = some '0' ∧ whole ≠ ['0']) then none
  else
    let (fraction, rest) ← readFraction? (cs.dropWhile Char.isDigit)
    let (exponent, rest) ← readExponent? rest
    let x ← magnitude? whole fraction exponent
    some (x, rest)

def readNumber? : List Char → Option (Document × List Char)
  | '-' :: cs => (readMagnitude? cs).map fun (x, rest) => (.number (-x), rest)
  | cs => (readMagnitude? cs).map fun (x, rest) => (.number x, rest)

end Tabular.Document
