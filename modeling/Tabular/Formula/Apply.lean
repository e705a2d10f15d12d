import Tabular.Formula.Eval

/-!
# Writing a formula's value into a table

The value goes into one cell, and the table grows to hold it up to the size of the largest
worksheet.
-/
namespace Tabular

/-- The rows of the largest worksheet, the header among them. -/
def maxSheetRows : Nat := 1048576

def maxSheetColumns : Nat := 16384

def Table.fitsSheet (t : Table) : Bool := t.rowCount + 1 ≤ maxSheetRows && t.columnCount ≤ maxSheetColumns

/-- The table with the value of a formula written into a cell. -/
def Table.applyFormula (t : Table) (formula target : String) : Except Error Table := do
  let a ← (CellAddress.parse target).mapError Error.reference
  if maxSheetRows - 1 ≤ a.row ∨ maxSheetColumns ≤ a.column then
    throw (.reference (.outsideSheet (Text.trim target) maxSheetRows maxSheetColumns))
  let e ← (Formula.parseText formula).mapError fun fault => Error.formula fault formula
  return t.setCell a.row a.column (Formula.eval ⟨t, some a.row⟩ e)

end Tabular
