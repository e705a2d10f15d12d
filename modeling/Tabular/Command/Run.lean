import Tabular.Command.Action
import Tabular.Command.Basic
import Tabular.Exchange
import Tabular.Settings

/-!
# Running commands

A run reads its settings, carries out one command and ends with a code. The command line, YAML and workbooks
are read by libraries, which come to a run as its host.
-/
namespace Tabular.Command

inductive Reading
  /-- A request, with the path of a settings file if one is named. -/
  | request (settings : Option String) (request : Request)
  /-- Help or a version, which is printed instead. -/
  | answered (text : String)
  /-- No command line of the program. -/
  | misused (note : String)

/-- The libraries that a run is built on. None of them changes files or prints. -/
structure Host where
  /-- Reads a command line, with the value of the variable that can name a settings file. -/
  arguments : Option String → List String → Reading
  /-- Reads settings from YAML. -/
  yaml : String → Except String Settings
  books : WorkbookLibrary

def localSettings : String := ".cellforge.yaml"

variable (host : Host)

def readSettings (lookup : Lookup) (path : String) : Except Error Settings :=
  match lookup path with
  | some (.file bytes) => match String.fromUTF8? bytes with
    | some text => Settings.parse host.yaml text
    | none => .error (.argument (.unreadableConfig path))
  | _ => .error (.argument (.unreadableConfig path))

/-- The settings in a named file, in the local one, or where there is neither the standard ones. -/
def loadSettings (lookup : Lookup) : Option String → Except Error Settings
  | some path => readSettings host lookup path
  | none =>
    if (lookup localSettings).isNone then .ok .standard else readSettings host lookup localSettings

def Route.printFormat (r : Route) (settings : Settings) : Format :=
  (r.format <|> settings.defaultFormat).getD .csv

def Route.fileFormat (r : Route) (path : String) : Except Error Format :=
  match r.format with
  | some format => .ok format
  | none => Format.ofPath path

def writeOptions (settings : Settings) : Except Error WriteOptions := do
  return ⟨none, ← settings.dialect, settings.precision⟩

def load (settings : Settings) (r : Route) : Action Table := do
  let csv ← settings.dialect
  Table.load host.books (← Action.look) r.input none ⟨r.sheet, csv⟩

def writtenNote (what path : String) : String := "✅ Wrote " ++ what ++ " → " ++ path ++ "\n"

def emit (settings : Settings) (r : Route) (t : Table) : Action Unit := do
  let options ← writeOptions settings
  match r.output with
  | some path =>
    let format ← r.fileFormat path
    let options := if format = .csv then options.forPath path else options
    Action.writeFile path (← t.encode host.books format options)
    Action.note (writtenNote (sizeText t.rowCount t.columnCount) path)
  | none => Action.print (← t.render host.books (r.printFormat settings) options).toUTF8

def emitSummary (settings : Settings) (r : Route) (summaries : List ColumnSummary) : Action Unit := do
  let options ← writeOptions settings
  match r.output with
  | some path =>
    let bytes ← ColumnSummary.encode host.books summaries (← r.fileFormat path) (options.forPath path)
    Action.writeFile path bytes
    Action.note (writtenNote ("statistics for " ++ natText summaries.length ++ " columns") path)
  | none =>
    (r.printFormat settings).ensurePrintable
    Action.print (← ColumnSummary.encode host.books summaries (r.printFormat settings) options)

/-- Reads a table under some settings and writes it, after some steps, under others. -/
def transform (reading writing : Settings) (r : Route) (steps : List Step) : Action Unit := do
  let t ← load host reading r
  emit host writing r (← Step.run t steps)

/-- Prints the value of a formula, or writes it into a cell of the table that goes into a file. -/
def evaluate (reading writing : Settings) (r : Route) (formula : String) (cell : Option String) :
    Action Unit :=
  match r.output, cell with
  | some _, some cell => transform host reading writing r [.formula formula cell]
  | some _, none => throw (.argument .noTargetCell)
  | none, cell => do
    let t ← load host reading r
    let value := Formula.evalText formula t (← targetRow cell)
    Action.print (value.displayText writing.precision ++ "\n").toUTF8

/-- Carries out a request, which reads under some settings and writes under others. -/
def performWith (reading writing : Settings) : Request → Action Unit
  | .table r command => do transform host reading writing r (← command.steps r)
  | .formula r formula cell => evaluate host reading writing r formula cell
  | .describe r => do emitSummary host writing r (← load host reading r).summary
  | .sheets input => do
    let names ← sheetNames host.books (← Action.look) input
    Action.note ("📒 " ++ input ++ " (" ++ natText names.length ++ " sheets)\n")
    Action.print (String.join (names.map (· ++ "\n"))).toUTF8

def perform (settings : Settings) : Request → Action Unit := performWith host settings settings

/-- Runs a command line, and gives the code with which the run ends. -/
def run (environment : Option String) (args : List String) : StateM World UInt32 := do
  match host.arguments environment args with
  | .answered text =>
    modify (·.printed text.toUTF8)
    return 0
  | .misused note =>
    modify (·.noted note)
    return 2
  | .request source request =>
    match loadSettings host (← get).store.lookup source with
    | .error e =>
      modify (·.noted ("Error: Failed to load config\n\nCaused by:\n    " ++ e.message ++ "\n"))
      return 1
    | .ok settings =>
      match ← (perform host settings request).run with
      | .ok () => return 0
      | .error e =>
        modify (·.noted ("Error: " ++ e.message ++ "\n"))
        return 1

end Tabular.Command
