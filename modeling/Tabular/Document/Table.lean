import Tabular.Document.Reader
import Tabular.Document.Writer
import Tabular.Summary
import Tabular.Text.Encoding

/-!
# Tables in JSON

A table is a list of objects, one a row, with a field for each column. Read back, the columns are
the names of all fields in the order in which they first occur, and a field that an object does
not have is missing. A row is as wide as the names found up to its end, and filled up once all
names are known.
-/
namespace Tabular.Document

def toCell (name : String) : Document → Except Error Value
  | null => .ok .missing
  | boolean b => .ok (.boolean b)
  | whole n => .ok (.number (Float.ofInt n))
  | number x => if x.isFinite then .ok (.number x) else .error (.codec (.numberTooLarge name))
  | text s => .ok (.text s)
  | list _ => .error (.codec (.nested name))
  | object _ => .error (.codec (.nested name))

def toCells (d : Document) (index : Nat) : Except Error (List (String × Value)) :=
  match d with
  | object fields => fields.mapM fun (name, value) => do return (name, ← toCell name value)
  | _ => .error (.codec (.notObject index))

/-- Puts a named cell into a row, at the position that its name has among the names found so far. A
name that is new has the next position. The row grows as far as it must. -/
def place : List String × List Value → String × Value → List String × List Value
  | (names, row), (name, v) =>
    let position := names.idxOf name
    let names := if position < names.length then names else names ++ [name]
    let row := if row.length ≤ position then Table.resized row (position + 1) else row
    (names, row.set position v)

/-- The rows of named cells, and the names found in them behind those found before. -/
def fillRows (names : List String) : List (List (String × Value)) → List String × List (List Value)
  | [] => (names, [])
  | cells :: rest =>
    let (names, row) := cells.foldl place (names, List.replicate names.length .missing)
    let (names, rows) := fillRows names rest
    (names, row :: rows)

def toTable : Document → Except Error Table
  | list items => do
    let cells ← items.zipIdx.mapM fun (d, i) => d.toCells i
    let (names, rows) := fillRows [] cells
    Table.ofRows names (rows.map fun row => Table.resized row names.length)
  | _ => .error (.codec .notArray)

def readTable (cs : List (Option Char)) : Except Error Table :=
  match Text.text? cs >>= parse? with
  | some d => d.toTable
  | none => .error .json

def maxWhole : Nat := Nat.pow 10 15

/-- The document of a cell. Numbers that are not finite become null, and errors their notation. -/
def ofValue : Value → Document
  | .number x =>
    if Number.isIntegral x.toFloat ∧ Number.wholePart x.toFloat < maxWhole then
      let n : Int := Number.wholePart x.toFloat
      whole (if Number.isNegative x.toFloat then -n else n)
    else if x.isFinite then number x.toFloat
    else null
  | .text s => text s
  | .boolean b => boolean b
  | .missing => null
  | .error e => text e.literal

def ofTable (t : Table) : Document :=
  list (t.rows.map fun row => object (t.names.zip (row.map ofValue)))

def ofSummary (s : ColumnSummary) : Document :=
  object (("column", text s.column) :: ("count", whole s.count) ::
    s.figures.map fun (label, x) => (label, (x.map fun d => number d.toFloat).getD null))

def ofSummaries (summaries : List ColumnSummary) : Document :=
  object [("columns", list (summaries.map ofSummary))]

end Tabular.Document
