import Tabular.Table.Basic

/-!
# Cells on display

Where tables are shown to people, numbers with a fractional part may be cut to a set number of
places.
-/
namespace Tabular

def Value.displayText (precision : Option Nat) : Value → String
  | number x => match precision with
    | some places =>
      if x.isFinite && !Number.isIntegral x.toFloat then Number.fixedText places x.toFloat
      else Number.cellText x.toFloat
    | none => Number.cellText x.toFloat
  | v => v.toText

/-- The texts of all cells, row by row. -/
def Table.displayRows (t : Table) (precision : Option Nat) : List (List String) :=
  t.rows.map fun row => row.map (·.displayText precision)

theorem Table.length_displayRows (t : Table) (precision : Option Nat) :
    (t.displayRows precision).length = t.rowCount := by
  rw [displayRows, List.length_map, rows, List.length_map, List.length_range]

theorem Table.length_of_mem_displayRows {precision : Option Nat} {t : Table} {row : List String}
    (h : row ∈ t.displayRows precision) : row.length = t.columnCount := by
  obtain ⟨values, hvalues, rfl⟩ := List.mem_map.mp h
  obtain ⟨i, -, rfl⟩ := List.mem_map.mp hvalues
  rw [List.length_map, Table.row, List.length_map, Table.columnCount]

/-- Whether a column is set against its right edge, as numbers are. -/
def Column.isRight (c : Column) : Bool := c.type = .number

end Tabular
