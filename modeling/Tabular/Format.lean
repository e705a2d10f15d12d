import Tabular.Csv.Record
import Tabular.Error

/-!
# File formats

The extension of a path tells the format of a file, where nothing else does. Two of the formats
are only written.
-/
namespace Tabular

inductive Format
  | csv
  | json
  | workbook
  | markdown
  | text
  deriving DecidableEq, Repr

namespace Format

def all : List Format := [csv, json, workbook, markdown, text]

def name : Format → String
  | csv => "csv"
  | json => "json"
  | workbook => "xlsx"
  | markdown => "markdown"
  | text => "text"

def ofName? (s : String) : Option Format := all.find? (·.name = s)

def isReadable : Format → Bool
  | csv => true
  | json => true
  | workbook => true
  | markdown => false
  | text => false

end Format

namespace Path

/-- The last part of a path, if it names a file. Slashes and single points at the end are left
out, and two points name no file. -/
def fileName? (path : List Char) : Option (List Char) :=
  let parts := (Text.pieces '/' path).reverse.dropWhile fun part => part = [] || part = ['.']
  parts.head?.filter (· ≠ ['.', '.'])

/-- What follows the last point of a file's name. A point at the very beginning is a part of the
name, and so is what follows it. -/
def extension? (path : List Char) : Option (List Char) := do
  let name ← fileName? path
  let (reversed, stem) ← Text.splitFirst? '.' name.reverse
  if stem = [] then none else some reversed.reverse

/-- The extension in lower case, empty where there is none. -/
def extension (path : String) : String :=
  Text.lower (String.ofList ((extension? path.toList).getD []))

end Path

def Format.ofPath (path : String) : Except Error Format :=
  match Path.extension path with
  | "csv" => .ok csv
  | "tsv" => .ok csv
  | "txt" => .ok csv
  | "json" => .ok json
  | "xlsx" => .ok workbook
  | "xlsm" => .ok workbook
  | "xls" => .ok workbook
  | "ods" => .ok workbook
  | "md" => .ok markdown
  | "markdown" => .ok markdown
  | "parquet" => .error (.format (.notSupported "parquet"))
  | "avro" => .error (.format (.notSupported "avro"))
  | "" => .error (.format (.noExtension path))
  | extension => .error (.format (.unknownExtension extension))

/-- The dialect of a file: the extension `tsv` always stands for tabs. -/
def Csv.Dialect.forPath (dialect : Dialect) (path : String) : Dialect :=
  if Path.extension path = "tsv" then { dialect with delimiter := '\t' } else dialect

end Tabular
