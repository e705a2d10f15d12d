import Tabular.Table.Basic
import Tabular.Value.Order

/-!
# Filters

A filter is written as a column, a comparison and a literal, such as `Amount >= 1000`. The literal
is read by the type of the column, unless it stands in quotes, which keep it text.
-/
namespace Tabular

/-- What a literal stands for in a column of a type; text that does not fit the type stays text,
and empty text is a missing cell. -/
def ColumnType.read (type : ColumnType) (s : String) : Value :=
  if s = "" then .missing
  else match type with
    | number => match Number.parseFinite? s.toList with
      | some n => .number n
      | none => .text s
    | boolean => match Value.infer s with
      | .boolean b => .boolean b
      | _ => .text s
    | text => .text s
    | mixed => .infer s

structure Predicate where
  column : String
  op : Comparison
  literal : String
  quoted : Bool
  deriving DecidableEq, Repr

namespace Predicate

/-- The comparison at the start of a text, the longest spelling first, and the text behind it. -/
def splitComparison? : List Char → Option (Comparison × List Char)
  | '>' :: '=' :: rest => some (.ge, rest)
  | '<' :: '=' :: rest => some (.le, rest)
  | '<' :: '>' :: rest => some (.ne, rest)
  | '!' :: '=' :: rest => some (.ne, rest)
  | '=' :: '=' :: rest => some (.eq, rest)
  | '=' :: rest => some (.eq, rest)
  | '>' :: rest => some (.gt, rest)
  | '<' :: rest => some (.lt, rest)
  | _ => none

/-- A comparison and a literal on one line, with blanks around each. -/
def readCondition? (cs : List Char) : Option (Comparison × List Char) := do
  let (op, rest) ← splitComparison? (Text.trimStart cs)
  let literal := Text.trimmed rest
  if '\n' ∈ literal then none else some (op, literal)

/-- The shortest column, of at least one character and on one line, that a condition follows. -/
def readFrom? : List Char → Option (List Char × Comparison × List Char)
  | [] => none
  | c :: cs =>
    if c = '\n' then none
    else match readCondition? cs with
      | some condition => some ([c], condition)
      | none => (readFrom? cs).map fun (column, condition) => (c :: column, condition)

/-- The parts of a predicate. As many of the blanks in front as can be are no part of the column. -/
def readParts? (cs : List Char) : Option (List Char × Comparison × List Char) :=
  let blanks := (cs.takeWhile Text.isBlank).length
  (List.range (blanks + 1)).reverse.findSome? fun n => readFrom? (cs.drop n)

def between? (quote : Char) (cs : List Char) : Option (List Char) :=
  if 2 ≤ cs.length ∧ cs.head? = some quote ∧ cs.getLast? = some quote then
    some cs.tail.dropLast
  else none

def unquote? (cs : List Char) : Option (List Char) := between? '"' cs <|> between? '\'' cs

def parse (s : String) : Except Error Predicate :=
  match readParts? s.toList with
  | none => .error (.argument (.notPredicate s))
  | some (column, op, literal) =>
    let inner? := unquote? literal
    .ok ⟨String.ofList column, op, String.ofList (inner?.getD literal), inner?.isSome⟩

/-- The value that the cells of a column of a type are compared with. -/
def typedLiteral (p : Predicate) (type : ColumnType) : Value :=
  if p.quoted then .text p.literal else type.read p.literal

/-- The rows in which a predicate holds of the column that it names. -/
def rowsOf (p : Predicate) (c : Column) : List Nat :=
  (c.values.zipIdx.filter fun (v, _) => v.holds p.op (p.typedLiteral c.type)).map (·.2)

end Predicate

/-- The rows in which a predicate holds, in their order. -/
def Table.filter (t : Table) (p : Predicate) : Except Error Table := do
  return t.takeRows (p.rowsOf (← t.require p.column))

end Tabular
