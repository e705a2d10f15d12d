import Tabular.Formula.Aggregate
import Tabular.Table.Classes

/-!
# Grouping

Rows with equal cells in the key columns form a group. A grouped table has one row a group: the
keys of its first row, and the aggregates of all its rows.
-/
namespace Tabular

structure Aggregation where
  aggregate : Aggregate
  column : String
  deriving DecidableEq, Repr

namespace Aggregation

def outputName (a : Aggregation) : String := a.column ++ "_" ++ a.aggregate.name

/-- Reads an aggregate's name, a colon and a column. -/
def parse (cs : List Char) : Except Error Aggregation :=
  match Text.splitFirst? ':' cs with
  | none => .error (.argument (.aggregationShape (String.ofList cs)))
  | some (name, column) => match Aggregate.ofName? (String.ofList name) with
    | none => .error (.argument (.unknownAggregation (Text.trim (String.ofList name))))
    | some aggregate => .ok ⟨aggregate, Text.trim (String.ofList column)⟩

/-- Reads aggregations between commas; blank ones are left out. -/
def parseList (s : String) : Except Error (List Aggregation) :=
  (Text.pieces ',' s.toList |>.filter (Text.trimmed · ≠ [])).mapM parse

end Aggregation

namespace Table

/-- The key column of a grouped table, one cell a group. -/
def keyColumn (groups : List (List Nat)) (source : Column) : Column :=
  .ofValues source.name (groups.map fun rows => source.value (rows.headD 0))

/-- The values of an aggregate, one a group. -/
def aggregateValues (groups : List (List Nat)) (aggregate : Aggregate) (source : Column) :
    List Value :=
  groups.map fun rows => aggregate.reduce (rows.map source.value)

/-- Adds columns of aggregates, each under the first free form of its name. -/
def addAggregates (groups : List (List Nat)) (columns : List Column) :
    List (Aggregation × Column) → List Column
  | [] => columns
  | (a, source) :: rest =>
    let name := freshName a.outputName (columns.map (·.name))
    addAggregates groups
      (columns ++ [.ofValues name (aggregateValues groups a.aggregate source)]) rest

/-- The table grouped by key columns, with an aggregate column for each aggregation. -/
def groupBy (t : Table) (keys : List String) (aggregations : List Aggregation) :
    Except Error Table := do
  if keys = [] then throw (.argument .noGroupKeys)
  let keyColumns ← keys.mapM t.require
  let sources ← aggregations.mapM fun a => t.require a.column
  let groups := t.rowClasses keyColumns
  ofColumns (addAggregates groups (keyColumns.map (keyColumn groups)) (aggregations.zip sources))

end Table

end Tabular
