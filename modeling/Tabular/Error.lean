import Tabular.Address
import Tabular.Formula.Expr

/-!
# Failures

What makes a whole operation fail, by cause. Failures of single formulas are values of cells and
do not occur here, a formula that does not parse apart.
-/
namespace Tabular

inductive SchemaFault
  | columnLength (name : String) (length expected : Nat)
  | duplicateName (name : String)
  | rowLength (row length expected : Nat)
  deriving DecidableEq, Repr

def SchemaFault.message : SchemaFault → String
  | columnLength name length expected =>
    "column '" ++ name ++ "' has " ++ natText length ++ " values, expected " ++ natText expected
  | duplicateName name => "duplicate column name '" ++ name ++ "'"
  | rowLength row length expected =>
    "row " ++ natText row ++ " has " ++ natText length ++ " values, expected " ++ natText expected

inductive ArgumentFault
  | emptyFill
  | emptySearch
  | noGroupKeys
  | aggregationShape (text : String)
  | unknownAggregation (name : String)
  | notPredicate (text : String)
  | selectedTwice (column : String)
  | emptyNewName (column : String)
  | dropsEveryColumn
  | delimiterNotAscii (c : Char)
  | unreadableConfig (path : String)
  | noColumnsNamed
  | unpairedNames (old new : Nat)
  | noTargetCell
  | noDestination
  deriving DecidableEq, Repr

def ArgumentFault.message : ArgumentFault → String
  | emptyFill => "fill value is empty"
  | emptySearch => "nothing to find: the search text is empty"
  | noGroupKeys => "groupby needs at least one key column"
  | aggregationShape text => "aggregation '" ++ text ++ "' must look like func:column"
  | unknownAggregation name =>
    "unknown aggregation '" ++ name ++ "' (use sum, avg, count, counta, min, max)"
  | notPredicate text => "expected 'column op value' in '" ++ text ++ "'"
  | selectedTwice column => "column '" ++ column ++ "' selected twice"
  | emptyNewName column => "new name for column '" ++ column ++ "' is empty"
  | dropsEveryColumn => "cannot drop every column"
  | delimiterNotAscii c =>
    "csv delimiter must be a single ASCII character, got '" ++ c.toString ++ "'"
  | unreadableConfig path => "cannot read config " ++ path
  | noColumnsNamed => "--columns names no columns"
  | unpairedNames old new =>
    "--from names " ++ natText old ++ " columns but --to names " ++ natText new
  | noTargetCell => "--output needs --cell to place the result"
  | noDestination => "convert needs --output or --format"

inductive FormatFault
  | notSupported (extension : String)
  | noExtension (path : String)
  | unknownExtension (extension : String)
  | outputOnly (format : String)
  | needsFile
  deriving DecidableEq, Repr

def FormatFault.message : FormatFault → String
  | notSupported extension => extension ++ " files are not supported"
  | noExtension path =>
    "cannot tell the format of '" ++ path ++ "' (no extension); pass --format"
  | unknownExtension extension => "unknown extension '." ++ extension ++ "'"
  | outputOnly format => format ++ " is an output-only format"
  | needsFile => "xlsx output needs --output <file>"

inductive CodecFault
  | tooManyFields (line fields expected : Nat)
  | notArray
  | notObject (index : Nat)
  | numberTooLarge (field : String)
  | nested (field : String)
  | notUtf8
  deriving DecidableEq, Repr

def CodecFault.message : CodecFault → String
  | tooManyFields line fields expected =>
    "line " ++ natText line ++ " has " ++ natText fields ++ " fields, expected " ++ natText expected
  | notArray => "JSON input must be an array of objects"
  | notObject index => "element " ++ natText index ++ " is not an object"
  | numberTooLarge field => "field '" ++ field ++ "': number out of range"
  | nested field => "field '" ++ field ++ "' holds a nested value"
  | notUtf8 => "invalid utf-8 sequence"

/-- Why a workbook cannot be read or written, with the reason that a library of workbooks gives. -/
inductive WorkbookFault
  | tooLarge (rows columns : Nat)
  | noSheets
  | noSheet (wanted : String) (available : List String)
  | cannotOpen (reason : String)
  | cannotRead (sheet reason : String)
  | invalidName (reason : String)
  | cannotWriteHeader (reason : String)
  | cannotWriteCell (reason : String)
  | cannotEncode (reason : String)
  deriving DecidableEq, Repr

def WorkbookFault.message : WorkbookFault → String
  | tooLarge rows columns => sizeText rows columns ++ " does not fit in a worksheet"
  | noSheets => "workbook has no sheets"
  | noSheet wanted available =>
    "no sheet named '" ++ wanted ++ "' (available: " ++ ", ".intercalate available ++ ")"
  | cannotOpen reason => "Failed to open workbook: " ++ reason
  | cannotRead sheet reason => "Failed to read sheet '" ++ sheet ++ "': " ++ reason
  | invalidName reason => "Invalid worksheet name: " ++ reason
  | cannotWriteHeader reason => "Failed to write header: " ++ reason
  | cannotWriteCell reason => "Failed to write cell: " ++ reason
  | cannotEncode reason => "Failed to encode workbook: " ++ reason

inductive Error
  | workbook (fault : WorkbookFault)
  | codec (fault : CodecFault)
  | formula (fault : Formula.ParseFault) (text : String)
  | reference (fault : AddressFault)
  | columnNotFound (name : String)
  | typeMismatch (column : String) (type : ColumnType) (row : Nat) (value : Value)
  | schema (fault : SchemaFault)
  | format (fault : FormatFault)
  | argument (fault : ArgumentFault)
  /-- A file cannot be read or written. -/
  | io (path : String)
  /-- A configuration is no YAML of the expected form, with the reason that a reader of YAML gives. -/
  | yaml (reason : String)
  /-- A CSV record is not UTF-8. -/
  | csv
  /-- A text is no JSON. -/
  | json
  deriving DecidableEq, Repr

def Error.message : Error → String
  | workbook fault => "Excel error: " ++ fault.message
  | codec fault => "Codec error: " ++ fault.message
  | formula fault text => "Parse error: " ++ fault.message ++ " in '" ++ text ++ "'"
  | reference fault => "Invalid reference: " ++ fault.message
  | columnNotFound name => "Column not found: " ++ name
  | typeMismatch column type row value =>
    "Type mismatch: column '" ++ column ++ "' is declared " ++ type.name ++ " but row " ++
      natText row ++ " holds " ++ value.described
  | schema fault => "Schema error: " ++ fault.message
  | format fault => "Unsupported format: " ++ fault.message
  | argument fault => "Invalid argument: " ++ fault.message
  | io path => "IO error: cannot open " ++ path
  | yaml reason => "Config error: " ++ reason
  | csv => "CSV error: invalid UTF-8"
  | json => "JSON error: not a valid document"

end Tabular
