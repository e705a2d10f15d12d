import Tabular.Number.Shortest

/-!
# Numbers as text

A layout says how a shortest decimal is written: up to which size positionally, with or without a
point in whole numbers, how an exponent shows its sign, and which of two equally near decimals is
taken. Each output of the library has one layout. Fixed places are written from the exact value.
-/
namespace Tabular.Number

structure Layout where
  /-- Whether a number whose leading digit stands for `10 ^ e` is written positionally. -/
  isPositional : Int → Bool
  /-- Whole numbers end in `.0`. -/
  pointZero : Bool
  /-- A positive exponent shows its sign. -/
  exponentPlus : Bool
  tie : Tie

/-- Cells are written positionally whatever their size, whole numbers without a point. -/
def Layout.cell : Layout where
  isPositional _ := true
  pointZero := false
  exponentPlus := false
  tie := .up

/-- Interchange documents show a point in whole numbers, positionally from `10 ^ -5` to below
`10 ^ 16`, and otherwise a signed exponent. -/
def Layout.interchange : Layout where
  isPositional e := -5 ≤ e && e < 16
  pointZero := true
  exponentPlus := true
  tie := .toEven

/-- Messages show a point in whole numbers, positionally from `10 ^ -4` to below `10 ^ 16`, and
otherwise an exponent without a plus sign. -/
def Layout.message : Layout where
  isPositional e := -4 ≤ e && e < 16
  pointZero := true
  exponentPlus := false
  tie := .up

/-- Digits with a point before the last `places` of them, filled up with zeros in front. -/
def withPoint (digits : List Char) (places : Nat) : List Char :=
  let padded := List.replicate (places + 1 - digits.length) '0' ++ digits
  let whole := padded.take (padded.length - places)
  if places = 0 then whole else whole ++ '.' :: padded.drop (padded.length - places)

def intText (n : Int) : List Char :=
  if n < 0 then '-' :: Nat.toDigits 10 n.natAbs else Nat.toDigits 10 n.natAbs

def Layout.decimalText (l : Layout) (d : Decimal) : List Char :=
  let digits := Nat.toDigits 10 d.digits
  let leading : Int := d.exponent + digits.length - 1
  if l.isPositional leading then
    if 0 ≤ d.exponent then
      digits ++ List.replicate d.exponent.toNat '0' ++ (if l.pointZero then ['.', '0'] else [])
    else withPoint digits (-d.exponent).toNat
  else
    let mantissa := match digits with
      | first :: second :: rest => first :: '.' :: second :: rest
      | short => short
    let sign := if 0 ≤ leading && l.exponentPlus then ['+'] else []
    mantissa ++ 'e' :: sign ++ intText leading

def Layout.magnitudeText (l : Layout) (x : Float) : List Char :=
  if x == 0.0 then (if l.pointZero then ['0', '.', '0'] else ['0'])
  else if x.isFinite then l.decimalText (shortest l.tie x)
  else ['i', 'n', 'f']

/-- The text of a double in a layout; zero keeps its sign. -/
def Layout.text (l : Layout) (x : Float) : List Char :=
  if x.isNaN then ['N', 'a', 'N']
  else if isNegative x then '-' :: l.magnitudeText x
  else l.magnitudeText x

/-- The text of a number in a cell: the fewest digits that read back, and zero without a sign. -/
def cellText (x : Float) : String :=
  String.ofList (if x == 0.0 then ['0'] else Layout.cell.text x)

/-- The text of a finite double with a set number of places, rounded from the exact value with
halves to the even neighbour; the sign stays even where only zeros are left. -/
def fixedText (places : Nat) (x : Float) : String :=
  let (num, den) := (magnitude x).inUnits (-(places : Int))
  let digits := withPoint (Nat.toDigits 10 (roundQuotient .toEven num den)) places
  String.ofList (if isNegative x then '-' :: digits else digits)

end Tabular.Number
