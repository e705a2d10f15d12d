import Tabular.Formula.Aggregate

/-!
# The catalog of functions

Each function has its names, the numbers of arguments it accepts, and the arguments it reads as
whole ranges.
-/
namespace Tabular.Formula

inductive Function
  | aggregate (a : Aggregate)
  | ifElse
  | round
  | abs
  | len
  | concat
  | and
  | or
  | not
  | sumIf
  | countIf
  | vlookup
  | row
  deriving DecidableEq, Repr

inductive Arity
  | exactly (n : Nat)
  | between (least most : Nat)
  | atLeast (n : Nat)
  deriving DecidableEq, Repr

def Arity.accepts : Arity → Nat → Bool
  | exactly n, count => count = n
  | between least most, count => least ≤ count && count ≤ most
  | atLeast n, count => n ≤ count

namespace Function

/-- The names of all functions. The first name of a function is the one it is called by. -/
def catalog : List (String × Function) :=
  [("SUM", aggregate .sum), ("AVERAGE", aggregate .average), ("COUNT", aggregate .count),
    ("COUNTA", aggregate .countPresent), ("MIN", aggregate .min), ("MAX", aggregate .max),
    ("IF", ifElse), ("ROUND", round), ("ABS", abs), ("LEN", len), ("CONCAT", concat),
    ("CONCATENATE", concat), ("AND", and), ("OR", or), ("NOT", not), ("SUMIF", sumIf),
    ("COUNTIF", countIf), ("VLOOKUP", vlookup), ("ROW", row)]

def ofName? (name : String) : Option Function :=
  (catalog.find? fun entry => Text.sameUpToCase entry.1 name).map (·.2)

def name (f : Function) : String :=
  ((catalog.find? fun entry => entry.2 = f).map (·.1)).getD ""

def arity : Function → Arity
  | aggregate _ | concat | and | or => .atLeast 1
  | ifElse | sumIf => .between 2 3
  | round => .between 1 2
  | abs | len | not => .exactly 1
  | countIf => .exactly 2
  | vlookup => .between 3 4
  | row => .between 0 1

end Function

end Tabular.Formula
