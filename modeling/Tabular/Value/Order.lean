import Tabular.Value.Basic

/-!
# Comparing values

Three notions live here. A comparison in a formula or a filter yields a value and may fail. The
order of sorting is total. The key of a value is its identity in grouping; errors have none, so
that an error equals nothing, not even itself.
-/
namespace Tabular

inductive Comparison
  | eq
  | ne
  | lt
  | le
  | gt
  | ge
  deriving DecidableEq, Repr

namespace Comparison

def symbol : Comparison → String
  | eq => "="
  | ne => "<>"
  | lt => "<"
  | le => "<="
  | gt => ">"
  | ge => ">="

/-- Whether a comparison holds of two things in the given order. -/
def holds : Comparison → Ordering → Bool
  | eq, o => o == .eq
  | ne, o => o != .eq
  | lt, o => o == .lt
  | le, o => o != .gt
  | gt, o => o == .gt
  | ge, o => o != .lt

end Comparison

/-- How two values other than errors stand to each other. -/
inductive Standing
  | ordered (o : Ordering)
  /-- Values of different categories, which are merely unequal. -/
  | unlike
  /-- Numbers one of which is not a number. -/
  | unordered
  deriving DecidableEq, Repr

/-- The order of two doubles, if both are numbers. Zeros of either sign are equal. -/
def Number.standing (x y : Float) : Standing :=
  if x < y then .ordered .lt
  else if y < x then .ordered .gt
  else if x == y then .ordered .eq
  else .unordered

namespace Value

/-- How two values stand to each other: a missing cell comes before every present value, and
values of one category have their natural order. -/
def standing : Value → Value → Standing
  | missing, missing => .ordered .eq
  | missing, _ => .ordered .lt
  | _, missing => .ordered .gt
  | number x, number y => Number.standing x.toFloat y.toFloat
  | text s, text t => .ordered (Ord.compare s t)
  | boolean a, boolean b => .ordered (Ord.compare a b)
  | _, _ => .unlike

/-- The value of a comparison. Errors carry over, the left one first. Values of different
categories are unequal, but to order them is a mismatch, as it is with what is not a number. -/
def compare (op : Comparison) : Value → Value → Value
  | error e, _ => error e
  | _, error e => error e
  | left, right => match left.standing right, op with
    | .ordered o, op => boolean (op.holds o)
    | .unlike, .eq => boolean false
    | .unlike, .ne => boolean true
    | .unlike, _ => error .typeMismatch
    | .unordered, _ => error .typeMismatch

/-- Whether a comparison holds; one that fails does not. -/
def holds (op : Comparison) (left right : Value) : Bool := left.compare op right == boolean true

def rank : Value → Nat
  | missing => 0
  | number _ => 1
  | text _ => 2
  | boolean _ => 3
  | error _ => 4

/-- The order of sorting: by kind, then by the natural order within a kind. -/
def sortOrder : Value → Value → Ordering
  | number x, number y => Ord.compare x.orderKey y.orderKey
  | text s, text t => Ord.compare s t
  | boolean a, boolean b => Ord.compare a b
  | error e, error f => Ord.compare e.ctorIdx f.ctorIdx
  | left, right => Ord.compare left.rank right.rank

/-- The identity of a value in grouping. -/
inductive Key
  | number (bits : UInt64)
  | text (s : String)
  | boolean (b : Bool)
  | missing
  deriving DecidableEq, Repr

/-- The key of a value. Zeros of either sign have one key; errors have none. -/
def key? : Value → Option Key
  | number n => some (.number (if n.isZero then (0.0 : Double) else n).bits)
  | text s => some (.text s)
  | boolean b => some (.boolean b)
  | missing => some .missing
  | error _ => none

end Value

end Tabular
