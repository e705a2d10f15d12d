import Tabular.Number.Arithmetic
import Tabular.Text.Pieces
import Tabular.Value.Order

/-!
# Aggregates

The reductions of a list of cells to one value, shared by formulas and grouping. Only numbers take
part; the first error among the cells is the result, except where cells are merely counted.
-/
namespace Tabular

inductive Aggregate
  | sum
  | average
  | count
  | countPresent
  | min
  | max
  deriving DecidableEq, Repr

namespace Aggregate

def name : Aggregate → String
  | sum => "sum"
  | average => "avg"
  | count => "count"
  | countPresent => "counta"
  | min => "min"
  | max => "max"

/-- All names, in any case and with blanks around them, that denote an aggregate. -/
def ofName? (s : String) : Option Aggregate :=
  match Text.lower (Text.trim s) with
  | "sum" => some sum
  | "avg" => some average
  | "mean" => some average
  | "average" => some average
  | "count" => some count
  | "counta" => some countPresent
  | "min" => some min
  | "max" => some max
  | _ => none

/-- The numbers among cells, unless an error comes first. -/
def numbers : List Value → Except CellError (List Double)
  | [] => .ok []
  | .number n :: rest => (numbers rest).map (n :: ·)
  | .error e :: _ => .error e
  | _ :: rest => numbers rest

/-- Folds the numbers from the first one on; no numbers at all are a bad reference. -/
def extreme (pick : Double → Double → Double) : List Double → Value
  | [] => .error .invalidRef
  | n :: rest => .number (rest.foldl pick n)

def ofNumbers : Aggregate → List Double → Value
  | sum, ns => .ofFloat (Number.sum (ns.map Double.toFloat))
  | average, ns =>
    if ns.isEmpty then .error .divByZero
    else .ofFloat (Number.sum (ns.map Double.toFloat) / Float.ofNat ns.length)
  | min, ns => extreme Number.lesser ns
  | max, ns => extreme Number.greater ns
  | count, ns => .ofNat ns.length
  | countPresent, ns => .ofNat ns.length

def reduce (a : Aggregate) (cells : List Value) : Value :=
  match a with
  | count => .ofNat (cells.countP (·.number?.isSome))
  | countPresent => .ofNat (cells.countP (!·.isMissing))
  | a => .ofExcept ((numbers cells).map a.ofNumbers)

end Aggregate

end Tabular
