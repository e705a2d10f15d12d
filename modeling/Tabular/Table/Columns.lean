import Tabular.Table.Basic

/-!
# Choosing and renaming columns

Columns keep their rows and types; only which ones there are, their order and their names change.
-/
namespace Tabular.Table

/-- The named columns in the given order, none of them named twice; `seen` are those before. -/
def columnsNamed (t : Table) (seen : List String) : List String → Except Error (List Column)
  | [] => .ok []
  | name :: rest => do
    if name ∈ seen then throw (.argument (.selectedTwice name))
    let c ← t.require name
    return c :: (← columnsNamed t (name :: seen) rest)

/-- The table of the named columns, in the given order. -/
def select (t : Table) (names : List String) : Except Error Table := do
  ofColumns (← t.columnsNamed [] names)

/-- The table without the named columns, of which at least one must stay. -/
def drop (t : Table) (names : List String) : Except Error Table := do
  names.forM fun name => do discard (t.require name)
  let kept := t.columns.filter (·.name ∉ names)
  if kept = [] ∧ t.columns ≠ [] then throw (.argument .dropsEveryColumn)
  ofColumns kept

def renameIn (t : Table) (names : List String) (change : String × String) :
    Except Error (List String) := do
  let i ← t.requireIndex change.1
  if Text.trim change.2 = "" then throw (.argument (.emptyNewName change.1))
  return names.set i change.2

/-- The table with columns renamed by pairs of an old and a new name. All old names are those of
the table as it was, so that names can be swapped. -/
def rename (t : Table) (changes : List (String × String)) : Except Error Table := do
  let names ← changes.foldlM t.renameIn t.names
  ofColumns (t.columns.zipWith Column.rename names)

end Tabular.Table
