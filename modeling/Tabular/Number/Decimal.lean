/-!
# Decimal numbers

A decimal is a natural number scaled by a power of ten. This file reads one from text and rounds
it to a double.
-/
namespace Tabular.Number

/-- The number `digits * 10 ^ exponent`. -/
structure Decimal where
  digits : Nat
  exponent : Int
  deriving DecidableEq, Repr

def infinity : Float := 1.0 / 0.0

/-- The number that a row of decimal digits stands for. -/
def digitsValue (digits : List Char) : Nat :=
  digits.foldl (fun n c => 10 * n + (c.toNat - '0'.toNat)) 0

namespace Decimal

/-- The double nearest to the decimal; of two equally near ones the even one. Decimals beyond the
range of doubles are settled by their size alone, so that no power of ten grows out of bounds. -/
def toFloat (d : Decimal) : Float :=
  if d.digits = 0 then 0.0
  else
    let size := d.exponent + (Nat.toDigits 10 d.digits).length
    if 400 < size then infinity
    else if size < -400 then 0.0
    else Float.ofScientific d.digits (d.exponent < 0) d.exponent.natAbs

def stripZeros (d : Decimal) : Decimal :=
  if d.digits ≠ 0 ∧ d.digits % 10 = 0 then stripZeros ⟨d.digits / 10, d.exponent + 1⟩ else d
termination_by d.digits
decreasing_by omega

end Decimal

/-- An exponent's text after its `e`: an optional sign and at least one digit, up to the end. -/
def readExponent? (cs : List Char) : Option Int :=
  let (negative, digits) := match cs with
    | '-' :: rest => (true, rest)
    | '+' :: rest => (false, rest)
    | rest => (false, rest)
  if digits ≠ [] ∧ digits.all Char.isDigit then
    let value : Int := digitsValue digits
    some (if negative then -value else value)
  else none

/-- Digits with an optional point among, before or after them, at least one digit, and an
optional exponent. -/
def readUnsigned? (cs : List Char) : Option Decimal :=
  let whole := cs.takeWhile Char.isDigit
  let afterWhole := cs.dropWhile Char.isDigit
  let (fraction, rest) := match afterWhole with
    | '.' :: r => (r.takeWhile Char.isDigit, r.dropWhile Char.isDigit)
    | r => ([], r)
  if whole ++ fraction = [] then none
  else
    let exponent? : Option Int := match rest with
      | [] => some 0
      | c :: r => if c = 'e' ∨ c = 'E' then readExponent? r else none
    exponent?.map fun exponent =>
      ⟨digitsValue (whole ++ fraction), exponent - fraction.length⟩

/-- The double that an unsigned decimal text stands for; too large a number reads as infinity. -/
def parseUnsigned? (cs : List Char) : Option Float := (readUnsigned? cs).map Decimal.toFloat

/-- The double that a decimal text with an optional sign stands for. Neither blanks nor words such
as `inf` are numbers. -/
def parse? : List Char → Option Float
  | '-' :: cs => (parseUnsigned? cs).map (- ·)
  | '+' :: cs => parseUnsigned? cs
  | cs => parseUnsigned? cs

/-- `parse?`, refusing numbers beyond the range of doubles. -/
def parseFinite? (cs : List Char) : Option Float := (parse? cs).filter Float.isFinite

end Tabular.Number
