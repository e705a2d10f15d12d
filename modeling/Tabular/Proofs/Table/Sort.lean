import Tabular.Proofs.Table.Rows
import Tabular.Proofs.Value.Order
import Tabular.Table.Sort

/-!
# Sorted tables

To sort a table is to take its rows in another order. In this order the values of the column stand
in the order of sorting, and rows whose values are equal in it stand as they stood, in either
direction, since values change places only if they are out of order.
-/
namespace Tabular

section Stable

variable {α : Type} {le : α → α → Bool}

/-- A merge sort of elements with their positions sorts by the position where it does not sort by
the element. -/
theorem pairwise_mergeSort_zipIdx (htrans : ∀ a b c, le a b = true → le b c = true → le a c = true)
    (htotal : ∀ a b, (le a b || le b a) = true) (l : List α) :
    (l.zipIdx.mergeSort fun a b => le a.1 b.1).Pairwise fun a b =>
      le a.1 b.1 = true ∧ (le b.1 a.1 = true → a.2 ≤ b.2) := by
  -- the sort does not change when the elements with their positions are numbered once more
  rw [← List.mergeSort_zipIdx, List.pairwise_map]
  have hposition : ∀ a ∈ l.zipIdx.zipIdx, a.1.2 = a.2 := by
    intro a ha
    obtain ⟨i, hi, rfl⟩ := List.mem_iff_getElem.mp ha
    simp
  refine (List.pairwise_mergeSort (List.zipIdxLE_trans fun a b c => htrans a.1 b.1 c.1)
    (List.zipIdxLE_total fun a b => htotal a.1 b.1) _).imp_of_mem ?_
  intro a b ha hb hab
  rw [List.mem_mergeSort] at ha hb
  rw [hposition a ha, hposition b hb]
  grind [List.zipIdxLE]

/-- A further element stands behind the elements that may not follow it, before all others. -/
theorem mergeSort_cons_eq (htrans : ∀ a b c, le a b = true → le b c = true → le a c = true)
    (htotal : ∀ a b, (le a b || le b a) = true) (a : α) (l : List α) :
    (a :: l).mergeSort le =
      (l.mergeSort le).filter (!le a ·) ++ a :: (l.mergeSort le).filter (le a ·) := by
  obtain ⟨front, back, hcons, hrest, hfront⟩ := List.mergeSort_cons htrans htotal a l
  have hback : ∀ b ∈ back, le a b = true := by
    have hpairwise := List.pairwise_mergeSort htrans htotal (a :: l)
    rw [hcons, List.pairwise_append, List.pairwise_cons] at hpairwise
    exact hpairwise.2.1.1
  rw [hcons, hrest, List.filter_append, List.filter_append, List.filter_eq_self.mpr hfront,
    List.filter_eq_self.mpr hback, List.filter_eq_nil_iff.mpr (by simpa using hback),
    List.filter_eq_nil_iff.mpr (by simpa using hfront), List.append_nil, List.nil_append]

/-- To sort and then to leave elements out is to leave them out and then to sort. -/
theorem filter_mergeSort (htrans : ∀ a b c, le a b = true → le b c = true → le a c = true)
    (htotal : ∀ a b, (le a b || le b a) = true) (p : α → Bool) (l : List α) :
    (l.mergeSort le).filter p = (l.filter p).mergeSort le := by
  induction l with
  | nil => rw [List.mergeSort_nil, List.filter_nil, List.mergeSort_nil]
  | cons a l ih =>
    by_cases ha : p a = true
    · rw [List.filter_cons_of_pos ha, mergeSort_cons_eq htrans htotal, mergeSort_cons_eq htrans htotal,
        List.filter_append, List.filter_cons_of_pos ha, ← ih, List.filter_comm p,
        List.filter_comm p]
    · obtain ⟨front, back, hcons, hrest, -⟩ := List.mergeSort_cons htrans htotal a l
      rw [List.filter_cons_of_neg ha, ← ih, hcons, hrest, List.filter_append, List.filter_append,
        List.filter_cons_of_neg ha]

end Stable

namespace Value

variable {descending : Bool}

theorem mayPrecede_trans (u v w : Value) (huv : u.mayPrecede descending v = true)
    (hvw : v.mayPrecede descending w = true) : u.mayPrecede descending w = true := by
  cases descending with
  | false => exact Std.TransCmp.isLE_trans huv hvw
  | true => exact Std.TransCmp.isLE_trans hvw huv

theorem mayPrecede_total (v w : Value) :
    (v.mayPrecede descending w || w.mayPrecede descending v) = true := by
  rw [Bool.or_eq_true]
  cases descending with
  | false => exact isLE_sortOrder_total v w
  | true => exact isLE_sortOrder_total w v

theorem mayPrecede_of_sortOrder_eq {v w : Value} (h : v.sortOrder w = .eq) :
    w.mayPrecede descending v = true := by
  obtain rfl := Std.LawfulEqCmp.eq_of_compare h
  cases descending <;> simp [mayPrecede, h]

/-- A value may stand before another one unless the two are out of order. -/
theorem mayPrecede_iff {v w : Value} : v.mayPrecede descending w = true ↔
    v.sortOrder w ≠ if descending then .lt else .gt := by
  have hswap : w.sortOrder v = (v.sortOrder w).swap := Std.OrientedCmp.eq_swap
  unfold mayPrecede
  rw [hswap]
  cases descending <;> cases v.sortOrder w <;> decide

end Value

namespace Column

theorem sortedRows_perm (c : Column) (descending : Bool) :
    (c.sortedRows descending).Perm (List.range c.values.length) := by
  have hperm := (List.mergeSort_perm c.values.zipIdx fun v w => v.1.mayPrecede descending w.1).map
    Prod.snd
  rwa [map_snd_zipIdx] at hperm

/-- The values of the column stand in order, and rows with equal values stand as before. -/
theorem pairwise_sortedRows (c : Column) (descending : Bool) :
    (c.sortedRows descending).Pairwise fun i j =>
      (c.value i).mayPrecede descending (c.value j) = true ∧
        ((c.value i).sortOrder (c.value j) = .eq → i < j) := by
  have hnodup : (c.sortedRows descending).Nodup :=
    (c.sortedRows_perm descending).nodup_iff.mpr List.nodup_range
  rw [sortedRows, List.nodup_iff_pairwise_ne, List.pairwise_map] at hnodup
  rw [sortedRows, List.pairwise_map]
  refine ((pairwise_mergeSort_zipIdx Value.mayPrecede_trans Value.mayPrecede_total c.values).and
    hnodup).imp_of_mem ?_
  intro a b ha hb ⟨⟨hab, htie⟩, hne⟩
  rw [List.mem_mergeSort] at ha hb
  rw [value_of_mem_zipIdx ha, value_of_mem_zipIdx hb]
  refine ⟨hab, fun heq => ?_⟩
  exact lt_of_le_of_ne (htie (Value.mayPrecede_of_sortOrder_eq heq)) hne

/-- Whether a row may stand before another one in a direction. -/
def precedes (c : Column) (descending : Bool) (i j : Nat) : Bool :=
  (c.value i).mayPrecede descending (c.value j)

theorem precedes_trans {descending : Bool} (c : Column) (i j k : Nat)
    (hij : c.precedes descending i j = true) (hjk : c.precedes descending j k = true) :
    c.precedes descending i k = true :=
  Value.mayPrecede_trans _ _ _ hij hjk

theorem precedes_total {descending : Bool} (c : Column) (i j : Nat) :
    (c.precedes descending i j || c.precedes descending j i) = true :=
  Value.mayPrecede_total _ _

theorem sortedRows_eq (c : Column) (descending : Bool) :
    c.sortedRows descending = (List.range c.values.length).mergeSort (c.precedes descending) := by
  rw [sortedRows, ← map_snd_zipIdx]
  refine List.map_mergeSort fun a ha b hb => ?_
  rw [precedes, value_of_mem_zipIdx ha, value_of_mem_zipIdx hb]

end Column

namespace Table

variable {t : Table}

/-- To sort rows that are taken is to take them in the order of the column. -/
theorem sort_takeRows {name : String} {c : Column} (hc : t.column? name = some c) (descending : Bool)
    (rows : List Nat) : (t.takeRows rows).sort name descending =
      .ok (t.takeRows (rows.mergeSort (c.precedes descending))) := by
  have hpicks : ∀ k ∈ (c.takeRows rows).sortedRows descending, k < rows.length := fun k hk => by
    simpa [Column.takeRows] using (((c.takeRows rows).sortedRows_perm descending).mem_iff).mp hk
  have hrows : ((c.takeRows rows).sortedRows descending).map (rowAt rows) =
      rows.mergeSort (c.precedes descending) := by
    have hlength : (c.takeRows rows).values.length = rows.length := List.length_map ..
    conv_rhs => rw [← map_rowAt_range rows]
    rw [Column.sortedRows_eq, hlength]
    refine List.map_mergeSort fun i hi j hj => ?_
    rw [Column.precedes, Column.precedes,
      Column.value_takeRows (getElem?_eq_rowAt (List.mem_range.mp hi)),
      Column.value_takeRows (getElem?_eq_rowAt (List.mem_range.mp hj))]
  rw [sort, require, column?_takeRows hc, ← hrows, ← takeRows_takeRows hpicks]
  rfl

/-- The table `sorted` has the rows of `t` at the positions `order`. The values of the column `c` do
not decrease in it, or do not increase, and rows with equal values stand as in `t`. -/
structure SortedBy (t : Table) (c : Column) (descending : Bool) (order : List Nat)
    (sorted : Table) : Prop where
  valid : sorted.Valid
  names : sorted.names = t.names
  types : sorted.columns.map (·.type) = t.columns.map (·.type)
  perm : order.Perm (List.range t.rowCount)
  rows : sorted.rows = order.map t.row
  ordered : ∃ d, sorted.column? c.name = some d ∧
    d.values.Pairwise fun v w => v.sortOrder w ≠ if descending then .lt else .gt
  stable : order.Pairwise fun i j => (c.value i).sortOrder (c.value j) = .eq → i < j

theorem Valid.sortedBy_takeRows (h : t.Valid) {c : Column} (hc : t.column? c.name = some c)
    (descending : Bool) : t.SortedBy c descending (c.sortedRows descending)
      (t.takeRows (c.sortedRows descending)) := by
  have hmem : c ∈ t.columns := List.mem_of_find?_eq_some hc
  have hpairwise := c.pairwise_sortedRows descending
  exact {
    valid := h.takeRows_of_mem hmem _
    names := names_takeRows t _
    types := List.map_map
    perm := h.lengths c hmem ▸ c.sortedRows_perm descending
    rows := rows_takeRows t _
    ordered := ⟨_, column?_takeRows hc _, List.pairwise_map.mpr
      (hpairwise.imp fun h => Value.mayPrecede_iff.mp h.1)⟩
    stable := hpairwise.imp And.right }

/-- Sorting is by a total preorder of all values. It puts whole rows in this order, in either
direction, and leaves rows in their places that it does not tell apart. -/
theorem sort_sortedBy : Value.IsSortOrder Value.sortOrder ∧
    ∀ (t : Table) (name : String) (c : Column) (descending : Bool),
      t.Valid → t.column? name = some c → ∃ order sorted,
        t.sort name descending = .ok sorted ∧ t.SortedBy c descending order sorted := by
  refine ⟨Value.isSortOrder_sortOrder, fun t name c descending h hc => ?_⟩
  have hrequire : t.require name = .ok c := by rw [require, hc]
  have hname : c.name = name := by simpa using List.find?_some hc
  subst hname
  refine ⟨_, _, ?_, h.sortedBy_takeRows hc descending⟩
  rw [sort, hrequire]
  rfl

/-- Cells of every kind, among them both zeros, a tie, and what is not a number, of either sign and with
different payloads. -/
def readings : Table :=
  ⟨[⟨"Day", .text, ["Mo", "Tu", "We", "Th", "Fr", "Sa", "Su", "Mo", "Tu", "We"].map .text⟩,
    ⟨"Value", .mixed, [.number 0.0, .error .divByZero, .number ⟨0x7ff8000000000000⟩, .text "low",
      .number (-0.0), .missing, .boolean true, .number 0.0, .number ⟨0xfff8000000000000⟩,
      .number ⟨0xfff8000000000001⟩]⟩], 10⟩

theorem sort_sortedBy_readings : readings.Valid ∧ ∃ order sorted,
    readings.sort "Value" true = .ok sorted ∧
      readings.SortedBy readings.columns[1] true order sorted := by
  have hvalid : readings.Valid := by decide
  exact ⟨hvalid, sort_sortedBy.2 readings "Value" _ true hvalid (by decide)⟩

end Table

end Tabular
