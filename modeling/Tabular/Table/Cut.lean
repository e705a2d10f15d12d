import Tabular.Table.Basic

/-!
# Parts of a table

The first or last rows, a rectangle, and the table turned on its side.
-/
namespace Tabular.Table

/-- The first `n` rows, or all if there are fewer. -/
def head (t : Table) (n : Nat) : Table := t.takeRows (List.range (min n t.rowCount))

/-- The last `n` rows, or all if there are fewer. -/
def tail (t : Table) (n : Nat) : Table :=
  let count := min n t.rowCount
  t.takeRows (List.range' (t.rowCount - count) count)

/-- The columns of a range that are in the table, with all their rows. -/
def columnsIn (t : Table) (r : RangeAddress) : List Column :=
  (t.columns.take (min r.stop.column (t.columnCount - 1) + 1)).drop r.start.column

def slice (t : Table) (range : String) : Except Error Table := do
  let r ← (t.resolveRange range).mapError Error.reference
  ofColumns ((t.takeRows (t.rowIndices r)).columnsIn r)

/-- The table with a row for each column: the names first, then the cells of each row. -/
def transpose (t : Table) : Except Error Table := do
  let names ← Column.ofType "Column" .mixed (t.names.map Value.text)
  let rows ← (List.range t.rowCount).mapM fun i =>
    Column.ofType ("Row" ++ natText (i + 1)) .mixed (t.row i)
  ofColumns (names :: rows)

end Tabular.Table
