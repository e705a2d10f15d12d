import Tabular.Render.Cell

/-!
# Markdown tables

A row is its cells between pipes. A pipe inside a cell stands behind a backslash, and a line break
inside a cell becomes a blank, so that no cell leaves its place.
-/
namespace Tabular.Markdown

def escape (cell : List Char) : List Char :=
  cell.flatMap fun c => if c = '|' then ['\\', '|'] else if c = '\n' then [' '] else [c]

def line (cells : List (List Char)) : List Char :=
  ['|', ' '] ++ [' ', '|', ' '].intercalate cells ++ [' ', '|', '\n']

/-- The cell under a column's name, which says to which edge the column is set. -/
def rule (c : Column) : List Char := if c.isRight then ['-', '-', '-', ':'] else ['-', '-', '-']

def rowLine (row : List String) : List Char := line (row.map fun s => escape s.toList)

/-- The table in Markdown. Without columns there is nothing to write. -/
def write (precision : Option Nat) (t : Table) : String :=
  if t.columns = [] then ""
  else String.ofList (rowLine t.names ++ line (t.columns.map rule) ++
    (t.displayRows precision).flatMap rowLine)

end Tabular.Markdown
