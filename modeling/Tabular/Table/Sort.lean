import Tabular.Table.Basic
import Tabular.Value.Order

/-!
# Sorting rows

Rows are sorted by the values of one column. Rows with equal values keep their order in either
direction, so that sorting by a second column keeps what sorting by the first one achieved.
-/
namespace Tabular

/-- Whether a value may stand before another one in a direction. -/
def Value.mayPrecede (descending : Bool) (v w : Value) : Bool :=
  if descending then (w.sortOrder v).isLE else (v.sortOrder w).isLE

def Column.sortedRows (c : Column) (descending : Bool) : List Nat :=
  (c.values.zipIdx.mergeSort fun v w => v.1.mayPrecede descending w.1).map (·.2)

def Table.sort (t : Table) (column : String) (descending : Bool) : Except Error Table := do
  return t.takeRows ((← t.require column).sortedRows descending)

end Tabular
