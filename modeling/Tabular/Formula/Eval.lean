import Tabular.Formula.Parser
import Tabular.Formula.Function
import Tabular.Formula.Criterion
import Tabular.Table.Basic

/-!
# Evaluating formulas

An expression has a value in every table: whatever goes wrong is an error value. The arguments of
a call are evaluated on their own first; a reference among them is kept as it is, because some
functions read it as a whole range and others as a single cell.
-/
namespace Tabular.Formula

/-- The table that a formula reads and the row, counted from zero, that its value is meant for. -/
structure Context where
  table : Table
  targetRow : Option Nat

namespace Context

/-- The cell at an address, which must be in the table. -/
def cell (ctx : Context) (address : String) : Except CellError Value :=
  match ctx.table.resolveCell address with
  | .ok a => .ok (ctx.table.value a)
  | .error _ => .error .invalidRef

/-- The range between two corners, which must start in the table. -/
def range (ctx : Context) (corner opposite : String) : Except CellError RangeAddress :=
  match RangeAddress.parseCorners corner opposite >>= ctx.table.checkRange with
  | .ok r => .ok r
  | .error _ => .error .invalidRef

end Context

/-- An argument of a call: a reference as written, or the value of any other expression. -/
inductive Argument
  | cell (address : String)
  | range (corner opposite : String)
  | computed (v : Value)

/-- The value, unless it is an error. -/
def present : Value → Except CellError Value
  | .error e => .error e
  | v => .ok v

namespace Argument

/-- The single value of an argument; a range stands for its top left cell. -/
def scalar (ctx : Context) : Argument → Value
  | cell address => .ofExcept (ctx.cell address)
  | range corner opposite => .ofExcept ((ctx.range corner opposite).map fun r => ctx.table.value r.start)
  | computed v => v

/-- The cells of an argument in one list, row by row; a cell is a range of one. Errors in cells are
handed on, but a computed error fails. -/
def cells (ctx : Context) : Argument → Except CellError (List Value)
  | cell address => (ctx.cell address).map fun v => [v]
  | range corner opposite => (ctx.range corner opposite).map ctx.table.rangeValues
  | computed v => (present v).map fun v => [v]

def rows (ctx : Context) : Argument → Except CellError (List (List Value))
  | range corner opposite => (ctx.range corner opposite).map ctx.table.rangeRows
  | a => (present (a.scalar ctx)).map fun v => [[v]]

def required (ctx : Context) (a : Argument) : Except CellError Value := present (a.scalar ctx)

/-- The number of an argument; a missing one counts as zero. -/
def number (ctx : Context) (a : Argument) : Except CellError Double := do
  (← a.required ctx).operand

/-- The cells of all arguments, from left to right. -/
def allCells (ctx : Context) (arguments : List Argument) : Except CellError (List Value) :=
  (arguments.mapM (cells ctx)).map List.flatten

end Argument

/-- The value of an operator on two values. An error carries over, the left one first. Missing
counts as zero in sums, differences and products only. -/
def applyBinary (op : BinaryOp) : Value → Value → Value
  | .error e, _ => .error e
  | _, .error e => .error e
  | left, right => match op with
    | .compare c => left.compare c right
    | .add => arithmetic (· + ·) left right
    | .subtract => arithmetic (· - ·) left right
    | .multiply => arithmetic (· * ·) left right
    | .divide => match left, right with
      | .number a, .number b => if b.isZero then .error .divByZero else .ofFloat (a.toFloat / b.toFloat)
      | _, _ => .error .typeMismatch
    | .power => match left, right with
      | .number a, .number b =>
        if a.isZero && b.toFloat < 0.0 then .error .divByZero
        else .ofFloat (a.toFloat.pow b.toFloat)
      | _, _ => .error .typeMismatch
where
  arithmetic (f : Float → Float → Float) (left right : Value) : Value :=
    .ofExcept do return .ofFloat (f (← left.operand).toFloat (← right.operand).toFloat)

/-- The value of a sign in front of a value; missing counts as zero. -/
def applySign (sign : Sign) (v : Value) : Value :=
  .ofExcept do
    let n ← v.operand
    return .number (match sign with | .minus => -n | .plus => n)

/-- The number rounded to a number of decimal places, which may be negative. -/
def roundTo (x : Float) (places : Int) : Value :=
  if 0 ≤ places then
    let factor := Number.powerOfTen places.toNat
    .ofFloat (Number.roundHalfAway (x * factor) / factor)
  else
    let factor := Number.powerOfTen (min (-places) Int32.maxValue.toInt).toNat
    .ofFloat (if factor.isInf then 0.0 else Number.roundHalfAway (x / factor) * factor)

/-- The truth values among cells, numbers other than zero being true. The first error fails. -/
def flags : List Value → Except CellError (List Bool)
  | [] => .ok []
  | .boolean b :: rest => (flags rest).map (b :: ·)
  | .number n :: rest => (flags rest).map fun bs => (!n.isZero) :: bs
  | .error e :: _ => .error e
  | _ :: rest => flags rest

def judge (test : List Bool → Bool) (cells : List Value) : Except CellError Value := do
  let bs ← flags cells
  if bs.isEmpty then throw .typeMismatch else return .boolean (test bs)

/-- A truth value, or a number other than zero as one. -/
def truth : Value → Except CellError Bool
  | .boolean b => .ok b
  | .number n => .ok (!n.isZero)
  | _ => .error .typeMismatch

/-- The row that a lookup finds by its first cell. Approximate lookup expects ascending keys and
finds the last one that is not above the needle. -/
def findRow? (approximate : Bool) (needle : Value) (rows : List (List Value)) : Option (List Value) :=
  let keyHolds (op : Comparison) (row : List Value) : Bool := row.head?.any (·.holds op needle)
  if approximate then
    ((rows.takeWhile (!keyHolds .gt ·)).filter (keyHolds .le)).getLast?
  else rows.find? (keyHolds .eq)

/-- The value of a function that is no aggregate, from its evaluated arguments. -/
def applyFunction (ctx : Context) (f : Function) (arguments : List Argument) : Except CellError Value :=
  match f, arguments with
  | .aggregate a, arguments => (Argument.allCells ctx arguments).map a.reduce
  | .ifElse, condition :: yes :: no => match condition.scalar ctx with
    | .boolean true => .ok (yes.scalar ctx)
    | .boolean false => .ok ((no.head?.map (·.scalar ctx)).getD (.boolean false))
    | .error e => .error e
    | _ => .error .typeMismatch
  | .round, x :: places => do
    let x ← x.number ctx
    let places ← match places with
      | [] => pure (0.0 : Double)
      | places :: _ => places.number ctx
    return roundTo x.toFloat (Number.toIntWithin Int32.minValue.toInt Int32.maxValue.toInt places.toFloat)
  | .abs, x :: _ => do return .number (← x.number ctx).abs
  | .len, x :: _ => do return .ofNat (← x.required ctx).toText.length
  | .concat, arguments => do
    let texts ← arguments.mapM fun a => (a.required ctx).map Value.toText
    return .text (String.join texts)
  | .and, arguments => do judge (·.all id) (← Argument.allCells ctx arguments)
  | .or, arguments => do judge (·.any id) (← Argument.allCells ctx arguments)
  | .not, x :: _ => do return .boolean (!(← truth (← x.required ctx)))
  | .countIf, range :: criterion :: _ => do
    let cells ← range.cells ctx
    let criterion := Criterion.ofValue (← criterion.required ctx)
    return .ofNat (cells.countP criterion.meets)
  | .sumIf, range :: criterion :: summed => do
    let cells ← range.cells ctx
    let criterion := Criterion.ofValue (← criterion.required ctx)
    let summed ← match summed with
      | [] => pure cells
      | summed :: _ => summed.cells ctx
    let chosen := cells.zipIdx.filter fun (cell, _) => criterion.meets cell
    return Aggregate.sum.reduce (chosen.map fun (_, i) => summed.getD i .missing)
  | .vlookup, needle :: rows :: column :: mode => do
    let needle ← needle.required ctx
    let rows ← rows.rows ctx
    let column ← column.number ctx
    if column.toFloat < 1.0 then throw .typeMismatch
    let approximate ← match mode with
      | [] => pure false
      | mode :: _ => mode.required ctx >>= truth
    let position := (Number.toIntWithin 0 maxOrdinal column.toFloat).toNat
    match (findRow? approximate needle rows).bind fun row =>
        if position = 0 then none else row[position - 1]? with
    | some v => return v
    | none => throw .invalidRef
  | .row, [] => match ctx.targetRow with
    | some row => .ok (.ofNat (row + 1))
    | none => .error .invalidRef
  | .row, .cell address :: _ => rowOf address
  | .row, .range corner _ :: _ => rowOf corner
  | .row, .computed _ :: _ => .error .typeMismatch
  | _, _ => .error .malformed
where
  rowOf (address : String) : Except CellError Value :=
    match CellAddress.parse address with
    | .ok a => .ok (.ofNat (a.row + 1))
    | .error _ => .error .invalidRef

def applyCall (ctx : Context) (name : String) (arguments : List Argument) : Value :=
  match Function.ofName? name with
  | none => .error .unknownFunction
  | some f =>
    if f.arity.accepts arguments.length then .ofExcept (applyFunction ctx f arguments)
    else .error .malformed

/-- An expression with its value as an argument: references are kept as written. -/
def Expr.asArgument (v : Value) : Expr → Argument
  | .cell address => .cell address
  | .range corner opposite => .range corner opposite
  | _ => .computed v

mutual

def eval (ctx : Context) : Expr → Value
  | .number n => .number n
  | .text s => .text s
  | .boolean b => .boolean b
  | .cell address => (Argument.cell address).scalar ctx
  | .range corner opposite => (Argument.range corner opposite).scalar ctx
  | .binary op left right => applyBinary op (eval ctx left) (eval ctx right)
  | .unary sign operand => applySign sign (eval ctx operand)
  | .call name arguments => applyCall ctx name (evalArguments ctx arguments)

def evalArguments (ctx : Context) : List Expr → List Argument
  | [] => []
  | e :: rest => e.asArgument (eval ctx e) :: evalArguments ctx rest

end

theorem evalArguments_eq_map (ctx : Context) (es : List Expr) :
    evalArguments ctx es = es.map fun e => e.asArgument (eval ctx e) := by
  induction es with
  | nil => rfl
  | cons e es ih => rw [evalArguments, List.map_cons, ih]

/-- The value of a formula in a table, for a target row. A text that is no formula has an error for
its value. -/
def evalText (s : String) (table : Table) (targetRow : Option Nat) : Value :=
  match parseText s with
  | .ok e => eval ⟨table, targetRow⟩ e
  | .error _ => .error .malformed

end Tabular.Formula
