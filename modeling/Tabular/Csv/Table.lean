import Tabular.Csv.Record
import Tabular.Table.Basic

/-!
# Tables in CSV

The first record names the columns, or is a row like the others where there is no header. Cells
are typed by their text alone. A row shorter than the first record is filled up with missing
cells; a longer one is refused.
-/
namespace Tabular.Csv

/-- The texts of a record, unless the bytes of one of its fields are none. -/
def texts (record : List (List Symbol)) : Except Error (List String) :=
  record.mapM fun field => match Text.text? field with
    | some cs => .ok (String.ofList cs)
    | none => .error .csv

/-- The name of the column at an index where nothing else names it. -/
def positionName (index : Nat) : String := "col_" ++ natText (index + 1)

def headerNames (fields : List String) : List String :=
  freshNames (fields.zipIdx.map fun (field, i) =>
    if Text.trim field = "" then positionName i else Text.trim field)

/-- The cells of a row of the given width, of which the number of the record is given for the case
that it is too long. -/
def readRow (width number : Nat) (record : List (List Symbol)) : Except Error (List Value) := do
  let fields ← texts record
  if width < fields.length then throw (.codec (.tooManyFields number fields.length width))
  return Table.resized (fields.map Value.infer) width

def read (dialect : Dialect) (cs : List Symbol) : Except Error Table :=
  match readRecords dialect.delimiter (dropMark cs) with
  | [] => .ok .empty
  | first :: rest => do
    let fields ← texts first
    let names := if dialect.hasHeader then headerNames fields
      else (List.range fields.length).map positionName
    let firstRow := if dialect.hasHeader then [] else [fields.map Value.infer]
    let rows ← rest.zipIdx.mapM fun (record, i) => readRow fields.length (i + 2) record
    Table.ofRows names (firstRow ++ rows)

def write (dialect : Dialect) (t : Table) : String :=
  let header := if dialect.hasHeader && t.columns ≠ [] then [t.names] else []
  let records := header ++ t.rows.map fun row => row.map Value.toText
  String.ofList (records.flatMap fun fields =>
    writeRecord dialect.delimiter (fields.map String.toList))

end Tabular.Csv
