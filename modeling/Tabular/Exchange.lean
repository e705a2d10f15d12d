import Tabular.Csv.Table
import Tabular.Document.Table
import Tabular.Format
import Tabular.Render.Aligned
import Tabular.Render.Markdown
import Tabular.Workbook

/-!
# Reading and writing tables

A table goes into a file or onto the screen in one of the formats, and comes from a file in one that can be
read. Workbooks are the only format that is not text.
-/
namespace Tabular

structure WriteOptions where
  sheet : Option String
  csv : Csv.Dialect
  precision : Option Nat
  deriving DecidableEq, Repr

structure ReadOptions where
  sheet : Option String
  csv : Csv.Dialect
  deriving DecidableEq, Repr

def WriteOptions.forPath (options : WriteOptions) (path : String) : WriteOptions :=
  { options with csv := options.csv.forPath path }

/-- Fails for workbooks, which do not go onto the screen. -/
def Format.ensurePrintable (f : Format) : Except Error Unit :=
  if f = .workbook then .error (.format .needsFile) else .ok ()

def defaultSheet : String := "Sheet1"

variable (books : WorkbookLibrary)

namespace Table

def encode (t : Table) (format : Format) (options : WriteOptions) : Except Error ByteArray :=
  match format with
  | .csv => .ok (Csv.write options.csv t).toUTF8
  | .json => .ok (Document.ofTable t).toText.toUTF8
  | .workbook => books.encode (options.sheet.getD defaultSheet) t
  | .markdown => .ok (Markdown.write options.precision t).toUTF8
  | .text => .ok (Aligned.write options.precision t).toUTF8

def render (t : Table) (format : Format) (options : WriteOptions) : Except Error String := do
  format.ensurePrintable
  match String.fromUTF8? (← t.encode books format options) with
  | some text => return text
  | none => throw (.codec .notUtf8)

/-- The contents of a text file. A directory opens like a file, but fails when it is read. -/
def characters (lookup : Lookup) (path : String) (unreadable : Error) :
    Except Error (List (Option Char)) :=
  match lookup path with
  | some (.file bytes) => .ok (Text.decode bytes)
  | some .directory => .error unreadable
  | none => .error (.io path)

/-- Reads the table at a path, of which the extension tells the format where none is given. -/
def load (lookup : Lookup) (path : String) (format : Option Format) (options : ReadOptions) :
    Except Error Table := do
  let format ← match format with
    | some format => pure format
    | none => Format.ofPath path
  if !format.isReadable then throw (.format (.outputOnly format.name))
  match format with
  | .csv => Csv.read (options.csv.forPath path) (← characters lookup path .csv)
  | .json => Document.readTable (← characters lookup path .json)
  | _ => (← books.find lookup path).table options.sheet

end Table

def sheetNames (lookup : Lookup) (path : String) : Except Error (List String) := do
  return (← books.find lookup path).sheetNames

/-- The statistics as the contents of a file: a document has one record a column, and every other format
the table of statistics. -/
def ColumnSummary.encode (summaries : List ColumnSummary) (format : Format) (options : WriteOptions) :
    Except Error ByteArray :=
  match format with
  | .json => .ok (Document.ofSummaries summaries).toText.toUTF8
  | format => do (← toTable summaries).encode books format options

end Tabular
