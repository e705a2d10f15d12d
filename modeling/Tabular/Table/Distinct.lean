import Tabular.Table.Classes

/-!
# Distinct rows and values

A repeated row is dropped, and a repeated value is listed or counted once. Cells that are errors
equal nothing: rows with errors all stay, and errors are no values to list.
-/
namespace Tabular

/-- The items whose keys were not seen at an item before. An item without a key is always one. -/
def unseen {α κ : Type} [DecidableEq κ] (key : α → Option κ) (seen : List κ) : List α → List α
  | [] => []
  | item :: rest =>
    match key item with
    | none => item :: unseen key seen rest
    | some k =>
      if k ∈ seen then unseen key seen rest
      else item :: unseen key (k :: seen) rest

/-- Counts of distinct values, and the number of the count that a key has got. -/
structure Tally where
  counts : List (Value × Nat)
  slots : List (Value.Key × Nat)

def Tally.add (s : Tally) (v : Value) : Tally :=
  match v.key? with
  | none => s
  | some k => match s.slots.lookup k with
    | some i => { s with counts := s.counts.modify i fun (w, n) => (w, n + 1) }
    | none => ⟨s.counts ++ [(v, 1)], (k, s.counts.length) :: s.slots⟩

/-- The distinct values with the number of times that each occurs. -/
def Column.tally (c : Column) : List (Value × Nat) := (c.values.foldl Tally.add ⟨[], []⟩).counts

namespace Table

def distinctRows (t : Table) : Table :=
  t.takeRows (unseen (fun i => keyOf (t.row i)) [] (List.range t.rowCount))

/-- The distinct values of a column in the order in which they first occur. -/
def uniqueValues (t : Table) (column : String) : Except Error Table := do
  let c ← t.require column
  ofColumns [.ofValues c.name (c.tally.map (·.1))]

/-- The distinct values of a column with their counts, the most frequent first. -/
def valueCounts (t : Table) (column : String) : Except Error Table := do
  let c ← t.require column
  let counts := c.tally.mergeSort fun x y => decide (y.2 ≤ x.2)
  ofColumns [.ofValues c.name (counts.map (·.1)),
    .ofValues (freshName "count" [c.name]) (counts.map fun x => .ofNat x.2)]

end Table

end Tabular
