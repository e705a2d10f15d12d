import Tabular.Format
import Tabular.Step

/-!
# Commands

What a command line asks for. Its values are texts as they were given, and what they stand for is seen
when the command is carried out.
-/
namespace Tabular.Command

/-- Where a table comes from and where it goes: without an output it is printed. -/
structure Route where
  input : String
  output : Option String
  format : Option Format
  sheet : Option String
  deriving DecidableEq, Repr

/-- The route with its end on the screen, in a given format. -/
def Route.printing (f : Format) (r : Route) : Route := { r with output := none, format := some f }

inductive TableCommand
  | read (range : Option String)
  | convert
  | sort (column : String) (descending : Bool)
  | filter (predicate : String)
  | dedupe
  | transpose
  | select (columns : String)
  | head (n : Nat)
  | tail (n : Nat)
  | groupBy (keys aggregations : String)
  | fillMissing (value : String) (columns : Option String)
  | dropMissing (columns : Option String)
  | rename (old new : String)
  | drop (columns : String)
  | replace (find replacement : String) (column : Option String)
  | valueCounts (column : String)
  | unique (column : String)
  deriving DecidableEq, Repr

inductive Request
  | table (route : Route) (command : TableCommand)
  /-- Prints the value of a formula, or puts it into a cell of the table that goes into a file. -/
  | formula (route : Route) (formula : String) (cell : Option String)
  /-- Writes or prints the statistics of a table. -/
  | describe (route : Route)
  /-- Prints the names of the sheets of a workbook. -/
  | sheets (input : String)
  deriving DecidableEq, Repr

/-- The names in a list of columns, of which there must be one. -/
def namedColumns (list : String) : Except Error (List String) :=
  let columns := Text.items list
  if columns = [] then .error (.argument .noColumnsNamed) else .ok columns

def targetColumns (list : Option String) : List String := (list.map Text.items).getD []

/-- The pairs of old and new names from two lists of one length. -/
def renamings (old new : String) : Except Error (List (String × String)) :=
  let old := Text.items old
  let new := Text.items new
  if old = [] ∨ old.length ≠ new.length then
    .error (.argument (.unpairedNames old.length new.length))
  else .ok (old.zip new)

def targetRow : Option String → Except Error (Option Nat)
  | none => .ok none
  | some cell => do return some (← (CellAddress.parse cell).mapError Error.reference).row

/-- The steps of a command, which are found before anything is read. -/
def TableCommand.steps (route : Route) : TableCommand → Except Error (List Step)
  | read range => .ok (range.map Step.slice).toList
  | convert =>
    if route.output = none ∧ route.format = none then .error (.argument .noDestination) else .ok []
  | sort column descending => .ok [.sort column descending]
  | filter predicate => do return [.filter (← Predicate.parse predicate)]
  | dedupe => .ok [.dedupe]
  | transpose => .ok [.transpose]
  | select columns => do return [.select (← namedColumns columns)]
  | head n => .ok [.head n]
  | tail n => .ok [.tail n]
  | groupBy keys aggregations => do
    return [.groupBy (Text.items keys) (← Aggregation.parseList aggregations)]
  | fillMissing value columns => .ok [.fillMissing value (targetColumns columns)]
  | dropMissing columns => .ok [.dropMissing (targetColumns columns)]
  | rename old new => do return [.rename (← renamings old new)]
  | drop columns => do return [.drop (← namedColumns columns)]
  | replace find replacement column => .ok [.replace find replacement column]
  | valueCounts column => .ok [.valueCounts column]
  | unique column => .ok [.unique column]

namespace Request

def tableRoute? : Request → Option Route
  | table route _ => some route
  | describe route => some route
  | _ => none

/-- The request with its result on the screen, in a given format. -/
def printing (f : Format) : Request → Request
  | table route command => table (route.printing f) command
  | formula route text cell => formula (route.printing f) text cell
  | describe route => describe (route.printing f)
  | sheets input => sheets input

end Request

end Tabular.Command
