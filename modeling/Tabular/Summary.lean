import Tabular.Number.Arithmetic
import Tabular.Table.Basic

/-!
# Summary statistics

Every column of numbers is summarised by its count, mean, standard deviation, extremes and
quartiles. A column without numbers has a count of zero and nothing else.
-/
namespace Tabular

structure Spread where
  mean : Float
  /-- The standard deviation of a sample; of a single number it is zero. -/
  deviation : Float
  least : Double
  lowerQuartile : Float
  median : Float
  upperQuartile : Float
  greatest : Double
  deriving DecidableEq, Repr

namespace Spread

/-- The position of a quantile between the first of `count` numbers, at zero, and the last. -/
def position (count : Nat) (share : Float) : Float := Float.ofNat (count - 1) * share

def lowerRank (count : Nat) (share : Float) : Nat := Number.wholePart (position count share)

def upperRank (count : Nat) (share : Float) : Nat := Number.wholeAbove (position count share)

def gap (sorted : List Float) (share : Float) : Float :=
  sorted.getD (upperRank sorted.length share) 0.0 - sorted.getD (lowerRank sorted.length share) 0.0

/-- The quantile at a share of the way through ascending numbers. It lies on the line between the two
numbers nearest to its position. -/
def quantile (sorted : List Float) (share : Float) : Float :=
  let lower := lowerRank sorted.length share
  let fraction := position sorted.length share - Float.ofNat lower
  sorted.getD lower 0.0 + gap sorted share * fraction

def sampleDeviation (mean : Float) (xs : List Float) : Float :=
  if xs.length < 2 then 0.0
  else
    (Number.sum (xs.map fun x => (x - mean) * (x - mean)) / Float.ofNat (xs.length - 1)).sqrt

/-- The statistics of ascending numbers, the first of which is `least`. -/
def ofSorted (least : Double) (sorted : List Double) : Spread :=
  let xs := sorted.map Double.toFloat
  let mean := Number.sum xs / Float.ofNat xs.length
  { mean
    deviation := sampleDeviation mean xs
    least
    lowerQuartile := quantile xs 0.25
    median := quantile xs 0.5
    upperQuartile := quantile xs 0.75
    greatest := sorted.getLastD least }

end Spread

structure ColumnSummary where
  column : String
  count : Nat
  spread : Option Spread
  deriving DecidableEq, Repr

def Column.numbers (c : Column) : List Double := c.values.filterMap Value.number?

def Column.sortedNumbers (c : Column) : List Double :=
  c.numbers.mergeSort fun x y => x.orderKey ≤ y.orderKey

def Column.summary (c : Column) : ColumnSummary :=
  let sorted := c.sortedNumbers
  ⟨c.name, sorted.length, sorted.head?.map fun least => .ofSorted least sorted⟩

def Table.summary (t : Table) : List ColumnSummary :=
  (t.columns.filter (·.type = .number)).map Column.summary

namespace ColumnSummary

/-- The statistics behind the count, with their names. -/
def figures (s : ColumnSummary) : List (String × Option Double) :=
  [("mean", s.spread.map (·.mean)), ("std", s.spread.map (·.deviation)),
    ("min", s.spread.map (·.least)), ("25%", s.spread.map (·.lowerQuartile)),
    ("50%", s.spread.map (·.median)), ("75%", s.spread.map (·.upperQuartile)),
    ("max", s.spread.map (·.greatest))]

/-- The names of all statistics, the count first. -/
def labels : List String := ["count", "mean", "std", "min", "25%", "50%", "75%", "max"]

/-- The statistics as cells, the count first. -/
def cells (s : ColumnSummary) : List Value :=
  .ofNat s.count :: s.figures.map fun (_, x) => (x.map Value.number).getD .missing

/-- Adds a column for each summary, under the first free form of its name. -/
def addTo (columns : List Column) : List ColumnSummary → List Column
  | [] => columns
  | s :: rest =>
    addTo (columns ++ [.ofValues (freshName s.column (columns.map (·.name))) s.cells]) rest

/-- The table of summaries, with a row for each statistic. -/
def toTable (summaries : List ColumnSummary) : Except Error Table :=
  Table.ofColumns (addTo [.ofValues "stat" (labels.map Value.text)] summaries)

end ColumnSummary

end Tabular
