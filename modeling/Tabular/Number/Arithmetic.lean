import Tabular.Number.Double

/-!
# Arithmetic on doubles

The operations whose order of steps shows in the last digit: sums, whole powers, and the lesser
and greater of two numbers.
-/
namespace Tabular.Number

/-- The sum from left to right. It starts from negative zero, the number that changes no other. -/
def sum (xs : List Float) : Float := xs.foldl (· + ·) (-0.0)

/-- The lesser of two numbers; what is not a number gives way to one, and of equals the first
stays. -/
def lesser (x y : Double) : Double :=
  if x.isNaN then y else if y.toFloat < x.toFloat then y else x

/-- The greater of two numbers, by the same rules as `lesser`. -/
def greater (x y : Double) : Double :=
  if x.isNaN then y else if x.toFloat < y.toFloat then y else x

/-- `result * base ^ n` by repeated squaring: each step multiplies where the binary digit of `n`
is one, and squares the base for the next digit. -/
def powerStep (base result : Float) (n : Nat) : Float :=
  let result := if n % 2 = 1 then result * base else result
  if n / 2 = 0 then result else powerStep (base * base) result (n / 2)
termination_by n
decreasing_by omega

def powerOfTen (n : Nat) : Float := powerStep 10.0 1.0 n

end Tabular.Number
