import Tabular.Proofs.Address
import Tabular.Proofs.Table.Range

/-!
# Ranges by offsets

The cells that a range has in a table are counted from its top left corner, row by row. A cell's place
among them tells its offsets, by the width that is left of the range in the table.
-/
namespace Tabular

theorem mul_add_div_of_lt {i j width : Nat} (h : j < width) : (i * width + j) / width = i := by
  rw [Nat.mul_comm, Nat.mul_add_div (Nat.zero_lt_of_lt h), Nat.div_eq_of_lt h, Nat.add_zero]

/-- The numbers below a product, as rows of numbers below the second factor. -/
theorem map_range_mul {α : Type} (f : Nat → Nat → α) (height width : Nat) :
    (List.range (height * width)).map (fun k => f (k / width) (k % width)) =
      (List.range height).flatMap fun i => (List.range width).map (f i) := by
  induction height with
  | zero => rw [Nat.zero_mul, List.range_zero, List.map_nil, List.flatMap_nil]
  | succ height ih =>
    rw [Nat.succ_mul, List.range_add, List.map_append, ih, List.range_succ, List.flatMap_append,
      List.flatMap_singleton, List.map_map]
    refine congrArg _ (List.map_congr_left fun j hj => ?_)
    have hlt := List.mem_range.mp hj
    rw [Function.comp_apply, mul_add_div_of_lt hlt, Nat.mul_add_mod_of_lt hlt]

theorem filter_range {p : Nat → Bool} {m n : Nat} (hmn : m ≤ n) (hp : ∀ i < n, p i ↔ i < m) :
    (List.range n).filter p = List.range m := by
  obtain ⟨d, rfl⟩ := Nat.exists_eq_add_of_le hmn
  have hbelow : (List.range m).filter p = List.range m :=
    List.filter_eq_self.mpr fun i hi => (hp i (by have := List.mem_range.mp hi; omega)).mpr (List.mem_range.mp hi)
  have habove : ((List.range d).map (m + ·)).filter p = [] := by
    refine List.filter_eq_nil_iff.mpr fun i hi => ?_
    obtain ⟨j, hj, rfl⟩ := List.mem_map.mp hi
    have hlt := List.mem_range.mp hj
    rw [hp _ (by omega)]
    omega
  rw [List.range_add, List.filter_append, hbelow, habove, List.append_nil]

theorem flatMap_range {α : Type} {f : Nat → List α} {m n : Nat} (hmn : m ≤ n)
    (hf : ∀ i < n, m ≤ i → f i = []) : (List.range n).flatMap f = (List.range m).flatMap f := by
  obtain ⟨d, rfl⟩ := Nat.exists_eq_add_of_le hmn
  have habove : ((List.range d).map (m + ·)).flatMap f = [] := by
    refine List.flatMap_eq_nil_iff.mpr fun i hi => ?_
    obtain ⟨j, hj, rfl⟩ := List.mem_map.mp hi
    have hlt := List.mem_range.mp hj
    exact hf _ (by omega) (by omega)
  rw [List.range_add, List.flatMap_append, habove, List.append_nil]

/-- The cell so many rows below and so many columns to the right of the top left corner. -/
def RangeAddress.offset (r : RangeAddress) (i j : Nat) : CellAddress :=
  ⟨r.start.row + i, r.start.column + j⟩

namespace Table

variable {t : Table} {r : RangeAddress}

def heightOf (t : Table) (r : RangeAddress) : Nat := (t.rowIndices r).length

def widthOf (t : Table) (r : RangeAddress) : Nat := (t.columnIndices r).length

/-- The offsets of the cells that a range has in the table, row by row. -/
def offsets (t : Table) (r : RangeAddress) : List (Nat × Nat) :=
  (List.range r.height).flatMap fun i =>
    ((List.range r.width).filter fun j => t.contains (r.offset i j)).map (i, ·)

theorem heightOf_eq (t : Table) (r : RangeAddress) :
    t.heightOf r = min r.stop.row (t.rowCount - 1) + 1 - r.start.row := by
  rw [heightOf, rowIndices, indices, List.length_range']

theorem widthOf_eq (t : Table) (r : RangeAddress) :
    t.widthOf r = min r.stop.column (t.columnCount - 1) + 1 - r.start.column := by
  rw [widthOf, columnIndices, indices, List.length_range']

theorem heightOf_le_height (t : Table) (r : RangeAddress) : t.heightOf r ≤ r.height := by
  rw [heightOf_eq, RangeAddress.height]
  omega

theorem widthOf_le_width (t : Table) (r : RangeAddress) : t.widthOf r ≤ r.width := by
  rw [widthOf_eq, RangeAddress.width]
  omega

theorem rowIndices_eq (t : Table) (r : RangeAddress) :
    t.rowIndices r = (List.range (t.heightOf r)).map (r.start.row + ·) := by
  rw [heightOf_eq, rowIndices, indices, List.range'_eq_map_range]

theorem columnIndices_eq (t : Table) (r : RangeAddress) :
    t.columnIndices r = (List.range (t.widthOf r)).map (r.start.column + ·) := by
  rw [widthOf_eq, columnIndices, indices, List.range'_eq_map_range]

/-- The rows of a range in the table, with each cell found at its offsets. -/
theorem rangeRows_eq_map (t : Table) (r : RangeAddress) :
    t.rangeRows r = (List.range (t.heightOf r)).map fun i =>
      (List.range (t.widthOf r)).map fun j => t.value (r.offset i j) := by
  rw [rangeRows, rowIndices_eq, columnIndices_eq, List.map_map]
  refine List.map_congr_left fun i _ => ?_
  rw [Function.comp_apply, List.map_map]
  rfl

theorem widthOf_le_maxOrdinal (t : Table) {corner opposite : String}
    (h : RangeAddress.parseCorners corner opposite = .ok r) : t.widthOf r ≤ maxOrdinal := by
  have hstop := RangeAddress.stop_column_lt h
  rw [widthOf_eq]
  omega

/-- The cells of a range in the table, each found at its offsets. -/
theorem rangeValues_eq_map (t : Table) (r : RangeAddress) :
    t.rangeValues r = (List.range (t.heightOf r * t.widthOf r)).map fun k =>
      t.value (r.offset (k / t.widthOf r) (k % t.widthOf r)) := by
  rw [map_range_mul fun i j => t.value (r.offset i j), rangeValues, rangeRows_eq_map, List.flatMap_def]

section
variable (hstart : t.contains r.start) (hcovers : r.Covers r.start)
include hstart hcovers

theorem heightOf_pos : 0 < t.heightOf r := by
  obtain ⟨hrow, -⟩ := contains_iff.mp hstart
  have hstop := hcovers.1.2
  rw [heightOf_eq]
  omega

theorem widthOf_pos : 0 < t.widthOf r := by
  obtain ⟨-, hcolumn⟩ := contains_iff.mp hstart
  have hstop := hcovers.2.2
  rw [widthOf_eq]
  omega

/-- Of the offsets in a rectangle, those that are in the table. -/
theorem contains_offset_iff {i j : Nat} (hi : i < r.height) (hj : j < r.width) :
    t.contains (r.offset i j) ↔ i < t.heightOf r ∧ j < t.widthOf r := by
  rw [contains_iff, heightOf_eq, widthOf_eq, RangeAddress.offset]
  obtain ⟨hrow, hcolumn⟩ := contains_iff.mp hstart
  have hrows := hcovers.1.2
  have hcolumns := hcovers.2.2
  rw [RangeAddress.height] at hi
  rw [RangeAddress.width] at hj
  dsimp only
  omega

theorem mem_offsets_iff {p : Nat × Nat} :
    p ∈ t.offsets r ↔ p.1 < t.heightOf r ∧ p.2 < t.widthOf r := by
  obtain ⟨i, j⟩ := p
  have hin : (i, j) ∈ t.offsets r ↔ i < r.height ∧ j < r.width ∧ t.contains (r.offset i j) := by
    simp [offsets]
  rw [hin]
  constructor
  · rintro ⟨hi, hj, h⟩
    exact (contains_offset_iff hstart hcovers hi hj).mp h
  · intro h
    have hi := Nat.lt_of_lt_of_le h.1 (t.heightOf_le_height r)
    have hj := Nat.lt_of_lt_of_le h.2 (t.widthOf_le_width r)
    exact ⟨hi, hj, (contains_offset_iff hstart hcovers hi hj).mpr h⟩

theorem offsets_eq :
    t.offsets r = (List.range (t.heightOf r * t.widthOf r)).map fun k =>
      (k / t.widthOf r, k % t.widthOf r) := by
  have hheight := t.heightOf_le_height r
  have hwidth := t.widthOf_le_width r
  have hrow (i : Nat) (hi : i < t.heightOf r) :
      ((List.range r.width).filter fun j => t.contains (r.offset i j)) = List.range (t.widthOf r) :=
    filter_range hwidth fun j hj => by
      rw [contains_offset_iff hstart hcovers (Nat.lt_of_lt_of_le hi hheight) hj, and_iff_right hi]
  rw [map_range_mul Prod.mk, offsets, flatMap_range hheight]
  · exact List.flatMap_congr fun i hi => by rw [hrow i (List.mem_range.mp hi)]
  · intro i hi houtside
    have hnone : ((List.range r.width).filter fun j => t.contains (r.offset i j)) = [] :=
      List.filter_eq_nil_iff.mpr fun j hj => by
        rw [contains_offset_iff hstart hcovers hi (List.mem_range.mp hj)]
        omega
    rw [hnone, List.map_nil]

end

end Table

end Tabular
