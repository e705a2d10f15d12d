import Tabular.Render.Cell
import Tabular.Text.Pieces

/-!
# Aligned tables

Every column is as wide as its widest cell, numbers are set to the right and all else to the left,
and two blanks stand between columns. A rule of dashes under the names shows the widths.
-/
namespace Tabular.Aligned

def width (s : String) : Nat := s.toList.length

/-- The width of the column at an index: that of the widest among its name and its cells. -/
def columnWidth (name : String) (body : List (List String)) (index : Nat) : Nat :=
  (body.map fun row => width (row.getD index "")).foldl max (width name)

/-- Where a field stands: the width of its column and whether it is set to the right. -/
structure Slot where
  width : Nat
  isRight : Bool
  deriving DecidableEq, Repr

/-- A field filled up with blanks to the width of its column. -/
def pad (slot : Slot) (field : List Char) : List Char :=
  if slot.isRight then Text.padStart slot.width field else Text.padEnd slot.width field

/-- A line of fields, without blanks at its end. -/
def line (slots : List Slot) (fields : List (List Char)) : List Char :=
  Text.trimEnd ([' ', ' '].intercalate (slots.zipWith pad fields)) ++ ['\n']

def slots (t : Table) (body : List (List String)) : List Slot :=
  t.columns.zipIdx.map fun (c, i) => ⟨columnWidth c.name body i, c.isRight⟩

/-- The table as aligned text. Without columns there is nothing to write. -/
def write (precision : Option Nat) (t : Table) : String :=
  if t.columns = [] then ""
  else
    let body := t.displayRows precision
    let slots := slots t body
    String.ofList (line slots (t.names.map String.toList) ++
      line slots (slots.map fun slot => List.replicate slot.width '-') ++
      body.flatMap fun row => line slots (row.map String.toList))

end Tabular.Aligned
