import Tabular.Formula.Apply
import Tabular.Table.Clean
import Tabular.Table.Columns
import Tabular.Table.Cut
import Tabular.Table.Distinct
import Tabular.Table.Group
import Tabular.Table.Sort

/-!
# Steps

A step is one operation with its parameters, from a table to a table. Steps are run one after
another, and the first failure is the failure of the whole run.
-/
namespace Tabular

inductive Step
  | sort (column : String) (descending : Bool)
  | filter (predicate : Predicate)
  | dedupe
  | transpose
  | select (columns : List String)
  | head (n : Nat)
  | tail (n : Nat)
  | groupBy (keys : List String) (aggregations : List Aggregation)
  | slice (range : String)
  | formula (formula target : String)
  | fillMissing (value : String) (columns : List String)
  | dropMissing (columns : List String)
  | rename (changes : List (String × String))
  | drop (columns : List String)
  | replace (find replacement : String) (column : Option String)
  | valueCounts (column : String)
  | unique (column : String)
  deriving DecidableEq, Repr

namespace Step

def name : Step → String
  | sort .. => "sort"
  | filter _ => "filter"
  | dedupe => "dedupe"
  | transpose => "transpose"
  | select _ => "select"
  | head _ => "head"
  | tail _ => "tail"
  | groupBy .. => "groupby"
  | slice _ => "slice"
  | formula .. => "formula"
  | fillMissing .. => "fillna"
  | dropMissing _ => "dropna"
  | rename _ => "rename"
  | drop _ => "drop"
  | replace .. => "replace"
  | valueCounts _ => "value_counts"
  | unique _ => "unique"

def apply (t : Table) : Step → Except Error Table
  | sort column descending => t.sort column descending
  | filter p => t.filter p
  | dedupe => .ok t.distinctRows
  | transpose => t.transpose
  | select columns => t.select columns
  | head n => .ok (t.head n)
  | tail n => .ok (t.tail n)
  | groupBy keys aggregations => t.groupBy keys aggregations
  | slice range => t.slice range
  | formula f target => t.applyFormula f target
  | fillMissing value columns => t.fillMissing value columns
  | dropMissing columns => t.dropMissing columns
  | rename changes => t.rename changes
  | drop columns => t.drop columns
  | replace find replacement column => t.replace find replacement column
  | valueCounts column => t.valueCounts column
  | unique column => t.uniqueValues column

def run (t : Table) (steps : List Step) : Except Error Table := steps.foldlM apply t

end Step

end Tabular
