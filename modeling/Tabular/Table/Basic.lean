import Tabular.Error
import Tabular.Table.Name

/-!
# Tables

A table is a list of named and typed columns of one length. Building one from columns or rows
checks that; `Table.Valid` is what the checks establish and every operation keeps.
-/
namespace Tabular

structure Column where
  name : String
  type : ColumnType
  values : List Value
  deriving DecidableEq, Repr

namespace Column

/-- The one category of all present values, if there is one, and otherwise `mixed`. -/
def inferType (values : List Value) : ColumnType :=
  match values.filterMap Value.category with
  | [] => .mixed
  | first :: rest => if rest.all (· = first) then first else .mixed

def ofValues (name : String) (values : List Value) : Column := ⟨name, inferType values, values⟩

/-- A column with a declared type, which every value must fit. -/
def ofType (name : String) (type : ColumnType) (values : List Value) : Except Error Column :=
  match values.zipIdx.find? fun (v, _) => !type.admits v with
  | some (v, row) => .error (.typeMismatch name type (row + 1) v)
  | none => .ok ⟨name, type, values⟩

/-- The value in a row; a row that is not there is missing. -/
def value (c : Column) (row : Nat) : Value := c.values.getD row .missing

def rename (c : Column) (name : String) : Column := { c with name }

/-- The values of the given rows, in the given order. -/
def takeRows (c : Column) (rows : List Nat) : Column := { c with values := rows.map c.value }

end Column

structure Table where
  columns : List Column
  rowCount : Nat
  deriving DecidableEq, Repr

namespace Table

def empty : Table := ⟨[], 0⟩

def columnCount (t : Table) : Nat := t.columns.length

def names (t : Table) : List String := t.columns.map (·.name)

/-- The columns are of one length, their names differ, every value fits its column, and where
there are no columns there are no rows. -/
structure Valid (t : Table) : Prop where
  lengths : ∀ c ∈ t.columns, c.values.length = t.rowCount
  names : t.names.Nodup
  types : ∀ c ∈ t.columns, ∀ v ∈ c.values, c.type.admits v = true
  noColumns : t.columns = [] → t.rowCount = 0

/-- The first thing wrong with columns after those whose names are `seen`. -/
def schemaFault? (rowCount : Nat) (seen : List String) : List Column → Option SchemaFault
  | [] => none
  | c :: rest =>
    if c.values.length ≠ rowCount then some (.columnLength c.name c.values.length rowCount)
    else if c.name ∈ seen then some (.duplicateName c.name)
    else schemaFault? rowCount (c.name :: seen) rest

/-- The table of the given columns, which must have the length of the first and different names. -/
def ofColumns (columns : List Column) : Except Error Table :=
  let rowCount := (columns.head?.map (·.values.length)).getD 0
  match schemaFault? rowCount [] columns with
  | some fault => .error (.schema fault)
  | none => .ok ⟨columns, rowCount⟩

/-- The table of the given names and rows, with inferred types. -/
def ofRows (names : List String) (rows : List (List Value)) : Except Error Table :=
  match rows.zipIdx.find? fun (row, _) => row.length ≠ names.length with
  | some (row, i) => .error (.schema (.rowLength (i + 1) row.length names.length))
  | none => ofColumns (names.zipIdx.map fun (name, j) =>
      .ofValues name (rows.map fun row => row.getD j .missing))

def column? (t : Table) (name : String) : Option Column := t.columns.find? (·.name = name)

def columnIndex? (t : Table) (name : String) : Option Nat := t.columns.findIdx? (·.name = name)

def requireIndex (t : Table) (name : String) : Except Error Nat :=
  match t.columnIndex? name with
  | some i => .ok i
  | none => .error (.columnNotFound name)

def require (t : Table) (name : String) : Except Error Column :=
  match t.column? name with
  | some c => .ok c
  | none => .error (.columnNotFound name)

/-- The cell at a row and a column, if it is in the table. -/
def cell? (t : Table) (row column : Nat) : Option Value :=
  t.columns[column]?.bind fun c => c.values[row]?

/-- The value at an address; outside the table it is missing. -/
def value (t : Table) (a : CellAddress) : Value := (t.cell? a.row a.column).getD .missing

/-- The values of a row, from left to right. -/
def row (t : Table) (i : Nat) : List Value := t.columns.map (·.value i)

def rows (t : Table) : List (List Value) := (List.range t.rowCount).map t.row

/-- The given rows, in the given order. -/
def takeRows (t : Table) (rows : List Nat) : Table :=
  ⟨t.columns.map (·.takeRows rows), rows.length⟩

/-- The values cut or filled up with missing ones to a length. -/
def resized (values : List Value) (length : Nat) : List Value :=
  values.take length ++ List.replicate (length - values.length) .missing

/-- Adds empty columns on the right, named by their letters. -/
def addColumns : Nat → List Column → List Column
  | 0, columns => columns
  | n + 1, columns =>
    let name := freshName (columnLetters columns.length) (columns.map (·.name))
    addColumns n (columns ++ [⟨name, .mixed, []⟩])

/-- The table with one cell written. It grows to hold the cell; new cells are missing. The type of
the column written to is inferred anew. -/
def setCell (t : Table) (row column : Nat) (v : Value) : Table :=
  let rowCount := max t.rowCount (row + 1)
  let columns := addColumns (column + 1 - t.columnCount) t.columns
  let write (c : Column) (i : Nat) : Column :=
    let values := resized c.values rowCount
    if i = column then .ofValues c.name (values.set row v) else { c with values }
  ⟨columns.zipIdx.map fun (c, i) => write c i, rowCount⟩

def contains (t : Table) (a : CellAddress) : Bool := a.row < t.rowCount && a.column < t.columnCount

def resolveCell (t : Table) (s : String) : Except AddressFault CellAddress := do
  let a ← CellAddress.parse s
  if t.contains a then return a
  else throw (.outsideTable a t.rowCount t.columnCount)

/-- A range of which the top left corner must be in the table; the rest may reach beyond it. -/
def checkRange (t : Table) (r : RangeAddress) : Except AddressFault RangeAddress :=
  if t.contains r.start then .ok r
  else .error (.startsOutside r t.rowCount t.columnCount)

def resolveRange (t : Table) (s : String) : Except AddressFault RangeAddress := do
  t.checkRange (← RangeAddress.parse s)

/-- The numbers from `first` to `last`, both included. -/
def indices (first last : Nat) : List Nat := List.range' first (last + 1 - first)

def rowIndices (t : Table) (r : RangeAddress) : List Nat :=
  indices r.start.row (min r.stop.row (t.rowCount - 1))

def columnIndices (t : Table) (r : RangeAddress) : List Nat :=
  indices r.start.column (min r.stop.column (t.columnCount - 1))

/-- The cells of a range, row by row, cut at the table's edge. -/
def rangeRows (t : Table) (r : RangeAddress) : List (List Value) :=
  (t.rowIndices r).map fun row => (t.columnIndices r).map fun column => t.value ⟨row, column⟩

/-- The cells of a range in one list, row by row. -/
def rangeValues (t : Table) (r : RangeAddress) : List Value := (t.rangeRows r).flatten

end Table

end Tabular
