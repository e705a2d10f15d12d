import Tabular.Formula.Apply
import Tabular.Store

/-!
# Workbooks

A library opens workbooks and writes them, one sheet from one table. Here is what the program makes of the
cells that it gets from the library, and which calls it makes to store a table.
-/
namespace Tabular

inductive SheetError
  | divByZero
  | notAvailable
  | name
  | null
  | number
  | reference
  | value
  | gettingData
  deriving DecidableEq, Repr

def SheetError.toCellError : SheetError → CellError
  | divByZero => .divByZero
  | name => .unknownFunction
  | value => .typeMismatch
  | number => .typeMismatch
  | _ => .invalidRef

inductive SheetCell
  | integer (i : Int64)
  | number (x : Double)
  | text (s : String)
  | boolean (b : Bool)
  /-- A date or a duration, as a number of days. -/
  | days (x : Double)
  /-- A date or a duration, as it is written. -/
  | writtenDate (s : String)
  | error (e : SheetError)
  | empty
  deriving DecidableEq, Repr

def SheetCell.toValue : SheetCell → Value
  | integer i => .number (Double.ofFloat i.toFloat)
  | number x => .number x
  | text s => if s = "" then .missing else .text s
  | boolean b => .boolean b
  | days x => .number x
  | writtenDate s => .text s
  | error e => .error e.toCellError
  | empty => .missing

/-- An open workbook: the names of its sheets, and the cells in the used part of each, row by row. -/
structure Workbook where
  sheetNames : List String
  cells : String → Except String (List (List SheetCell))

inductive SheetCall
  | setName (name : String)
  | writeText (row column : Nat) (text : String)
  | writeNumber (row column : Nat) (x : Double)
  | writeBoolean (row column : Nat) (b : Bool)
  deriving DecidableEq, Repr

/-- A library of workbooks. It reads nothing but the file that it is asked to open, and leaves all files as
they are. Where it fails it gives a reason. -/
structure WorkbookLibrary where
  /-- Opens what is at a path. -/
  opens : String → Option Entry → Except String Workbook
  /-- Why a call fails behind earlier ones, if it does. The last of the earlier calls comes first. -/
  fault? : List SheetCall → SheetCall → Option String
  /-- The file with the sheet that calls have made up. -/
  save : List SheetCall → Except String ByteArray

namespace Workbook

def columnName (cell : SheetCell) (index : Nat) : String :=
  match cell.toValue with
  | .missing => "col_" ++ natText (index + 1)
  | v => Text.trim v.toText

def tableOf (rows : List (List SheetCell)) : Except Error Table :=
  match rows with
  | [] => .ok .empty
  | header :: rows =>
    Table.ofRows (freshNames (header.zipIdx.map fun (cell, i) => columnName cell i))
      (rows.map (·.map SheetCell.toValue))

/-- The sheet to read, the first one where none is wanted. -/
def sheet (w : Workbook) : Option String → Except Error String
  | some wanted =>
    if wanted ∈ w.sheetNames then .ok wanted else .error (.workbook (.noSheet wanted w.sheetNames))
  | none => match w.sheetNames with
    | first :: _ => .ok first
    | [] => .error (.workbook .noSheets)

def table (w : Workbook) (wanted : Option String) : Except Error Table := do
  let name ← w.sheet wanted
  let rows ← (w.cells name).mapError fun reason => .workbook (.cannotRead name reason)
  tableOf rows

end Workbook

def Value.sheetCall? (row column : Nat) : Value → Option SheetCall
  | .number x => some (.writeNumber row column x)
  | .text s => some (.writeText row column s)
  | .boolean b => some (.writeBoolean row column b)
  | .error e => some (.writeText row column e.literal)
  | .missing => none

/-- The calls that store a table, each with the way to report that it fails. -/
def Table.sheetCalls (t : Table) (sheet : String) : List (SheetCall × (String → WorkbookFault)) :=
  let header := t.names.zipIdx.map fun (name, j) => (SheetCall.writeText 0 j name, .cannotWriteHeader)
  let cells := t.rows.zipIdx.flatMap fun (row, i) => row.zipIdx.filterMap fun (v, j) =>
    (v.sheetCall? (i + 1) j).map fun call => (call, .cannotWriteCell)
  (.setName sheet, .invalidName) :: header ++ cells

namespace WorkbookLibrary

def call (books : WorkbookLibrary) (earlier : List SheetCall) :
    SheetCall × (String → WorkbookFault) → Except Error (List SheetCall)
  | (next, fault) => match books.fault? earlier next with
    | some reason => .error (.workbook (fault reason))
    | none => .ok (next :: earlier)

def encode (books : WorkbookLibrary) (sheet : String) (t : Table) : Except Error ByteArray := do
  if !t.fitsSheet then throw (.workbook (.tooLarge t.rowCount t.columnCount))
  let calls ← (t.sheetCalls sheet).foldlM books.call []
  (books.save calls).mapError fun reason => .workbook (.cannotEncode reason)

def find (books : WorkbookLibrary) (lookup : Lookup) (path : String) : Except Error Workbook :=
  (books.opens path (lookup path)).mapError fun reason => .workbook (.cannotOpen reason)

end WorkbookLibrary

end Tabular
