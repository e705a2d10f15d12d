import Tabular.Filter

/-!
# Cleaning cells

Missing cells are filled or their rows dropped, and text is replaced, in some columns or in all.
-/
namespace Tabular.Table

/-- Whether a column is among those named; where none is named, all are meant. -/
def isTarget (names : List String) (c : Column) : Bool := names.isEmpty || names.contains c.name

def requireAll (t : Table) (names : List String) : Except Error Unit :=
  names.forM fun name => discard (t.require name)

/-- The table with the cells of the target columns changed, and the types of these columns
inferred anew. -/
def mapCells (t : Table) (names : List String) (change : Column → Value → Value) :
    Except Error Table := do
  t.requireAll names
  ofColumns (t.columns.map fun c =>
    if isTarget names c then .ofValues c.name (c.values.map (change c)) else c)

/-- The table with missing cells filled by a text, read by each column's type. -/
def fillMissing (t : Table) (fill : String) (names : List String) : Except Error Table := do
  if fill = "" then throw (.argument .emptyFill)
  t.mapCells names fun c v => if v.isMissing then c.type.read fill else v

def dropMissing (t : Table) (names : List String) : Except Error Table := do
  t.requireAll names
  let targets := t.columns.filter (isTarget names)
  return t.takeRows ((List.range t.rowCount).filter fun i =>
    targets.all fun c => !(c.value i).isMissing)

/-- A cell with `find` replaced by `replacement`: wherever it occurs in a text, and in place of
any other present cell that shows exactly `find`. -/
def replaceCell (find replacement : String) (c : Column) : Value → Value
  | .missing => .missing
  | .text s => .text (String.ofList (Text.replaceAll find.toList replacement.toList s.toList))
  | v => if v.toText = find then c.type.read replacement else v

/-- The table with a text replaced, in one column or in all. -/
def replace (t : Table) (find replacement : String) (column : Option String) :
    Except Error Table := do
  if find = "" then throw (.argument .emptySearch)
  t.mapCells column.toList (replaceCell find replacement)

end Tabular.Table
