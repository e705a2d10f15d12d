import Tabular.Table.Basic
import Tabular.Value.Order

/-!
# Groups of equal rows

Items are put into groups one after another, each into the group of its key. The groups come in the order of
their first members. An item without a key is equal to nothing and has a group of its own.
-/
namespace Tabular

/-- Groups under construction, and the number of the group that a key has got. -/
structure Grouping (α κ : Type) where
  groups : List (List α)
  slots : List (κ × Nat)

namespace Grouping

variable {α κ : Type} [DecidableEq κ]

/-- Puts an item into the group of its key, or into a new one. -/
def add (key : α → Option κ) (g : Grouping α κ) (item : α) : Grouping α κ :=
  match key item with
  | none => { g with groups := g.groups ++ [[item]] }
  | some k => match g.slots.lookup k with
    | some i => { g with groups := g.groups.modify i (· ++ [item]) }
    | none => ⟨g.groups ++ [[item]], (k, g.groups.length) :: g.slots⟩

def ofItems (key : α → Option κ) (items : List α) : Grouping α κ := items.foldl (add key) ⟨[], []⟩

end Grouping

namespace Table

/-- The key of the given cells of a row: the keys of the cells, unless one of them has none. -/
def keyOf (cells : List Value) : Option (List Value.Key) := cells.mapM Value.key?

def rowClasses (t : Table) (columns : List Column) : List (List Nat) :=
  (Grouping.ofItems (fun i => keyOf (columns.map (·.value i))) (List.range t.rowCount)).groups

end Table

end Tabular
