import Tabular.Number.Binary
import Tabular.Number.Decimal

/-!
# The shortest decimal of a double

Of all decimals that read back as a given double, the one with the fewest digits, and of those
the nearest. The search looks at the grids of 1, 2, … 17 digits and on each only at the two
neighbours of the exact value, which is compared in whole numbers.
-/
namespace Tabular.Number

inductive Tie
  | toEven
  | up
  deriving DecidableEq, Repr

def roundQuotient (tie : Tie) (num den : Nat) : Nat :=
  let q := num / den
  match compare (2 * (num % den)) den, tie with
  | .lt, _ => q
  | .gt, _ => q + 1
  | .eq, .up => q + 1
  | .eq, .toEven => if q % 2 = 0 then q else q + 1

/-- The value in units of `10 ^ grid`, as a fraction. -/
def Binary.inUnits (b : Binary) (grid : Int) : Nat × Nat :=
  let (num, den) := b.fraction
  (num * Nat.pow 10 (-grid).toNat, den * Nat.pow 10 grid.toNat)

/-- The least power of ten above the value: estimated from the binary logarithm, which is right
within one step, and corrected. -/
def Binary.decimalScale (b : Binary) : Int :=
  let estimate : Int := ((b.mantissa.log2 : Int) + b.exponent) * 30103 / 100000
  let isAbove (k : Int) : Bool := let (num, den) := b.inUnits k; num < den
  if isAbove estimate then estimate
  else if isAbove (estimate + 1) then estimate + 1
  else estimate + 2

/-- Whether a decimal reads as the magnitude of `x`. -/
def readsBackAs (x : Float) (d : Decimal) : Bool := d.toFloat.toBits == x.abs.toBits

/-- The better of the value's two neighbours on a grid, if one of them reads back. -/
def onGrid? (tie : Tie) (x : Float) (grid : Int) : Option Decimal :=
  let (num, den) := (magnitude x).inUnits grid
  let lower : Decimal := ⟨num / den, grid⟩
  let upper : Decimal := ⟨num / den + 1, grid⟩
  match readsBackAs x lower, readsBackAs x upper with
  | true, true => some ⟨roundQuotient tie num den, grid⟩
  | true, false => some lower
  | false, true => some upper
  | false, false => none

/-- The value as a decimal, to its last digit. -/
def Binary.exactDecimal (b : Binary) : Decimal :=
  ⟨b.mantissa * Nat.pow 2 b.exponent.toNat * Nat.pow 5 (-b.exponent).toNat, -(-b.exponent).toNat⟩

/-- The shortest decimal that reads back as the magnitude of a finite double other than zero. -/
def shortest (tie : Tie) (x : Float) : Decimal :=
  let scale := (magnitude x).decimalScale
  let found? := (List.range 17).findSome? fun (n : Nat) => onGrid? tie x (scale - (n + 1))
  (found?.getD (magnitude x).exactDecimal).stripZeros

end Tabular.Number
