import Mathlib.Data.List.Basic
import Tabular.Proofs.Outcome
import Tabular.Table.Basic

/-!
# Reading ranges

A range that starts in a table is read from those of its cells that are there. Were the table to go
on with missing cells, the whole rectangle would hold the same cells besides missing ones.
-/
namespace Tabular

/-- The address lies in the rectangle. -/
def RangeAddress.Covers (r : RangeAddress) (a : CellAddress) : Prop :=
  (r.start.row ≤ a.row ∧ a.row ≤ r.stop.row) ∧ r.start.column ≤ a.column ∧ a.column ≤ r.stop.column

theorem RangeAddress.covers_start {corner opposite : String} {r : RangeAddress}
    (h : parseCorners corner opposite = .ok r) : r.Covers r.start := by
  obtain ⟨a, -, h⟩ := bind_eq_ok.mp h
  obtain ⟨b, -, h⟩ := bind_eq_ok.mp h
  cases h
  simp only [Covers, between]
  omega

namespace Table

variable {t : Table} {r : RangeAddress}

theorem contains_iff {a : CellAddress} :
    t.contains a ↔ a.row < t.rowCount ∧ a.column < t.columnCount := by
  simp only [contains, Bool.and_eq_true, decide_eq_true_eq]

theorem resolveCell_eq_ok {s : String} {a : CellAddress} :
    t.resolveCell s = .ok a ↔ CellAddress.parse s = .ok a ∧ t.contains a := by
  rw [resolveCell]
  cases CellAddress.parse s with
  | error fault => exact ⟨nofun, fun h => nomatch h.1⟩
  | ok b =>
    constructor
    · intro h
      obtain ⟨_, ⟨⟩, h⟩ := bind_eq_ok.mp h
      split at h
      next hb =>
        cases h
        exact ⟨rfl, hb⟩
      next => cases h
    · rintro ⟨⟨⟩, ha⟩
      exact bind_eq_ok.mpr ⟨_, rfl, if_pos ha⟩

theorem checkRange_eq_ok {r s : RangeAddress} :
    t.checkRange r = .ok s ↔ s = r ∧ t.contains r.start := by
  rw [checkRange]
  split
  next hr => exact ⟨fun h => ⟨(Except.ok.inj h).symm, hr⟩, fun h => congrArg Except.ok h.1.symm⟩
  next hr => exact ⟨nofun, fun h => absurd h.2 hr⟩

theorem of_resolveRange_eq_ok {s : String} (h : t.resolveRange s = .ok r) :
    t.contains r.start ∧ r.Covers r.start := by
  obtain ⟨r', hparse, hcheck⟩ := bind_eq_ok.mp h
  obtain ⟨rfl, hstart⟩ := checkRange_eq_ok.mp hcheck
  refine ⟨hstart, ?_⟩
  rw [RangeAddress.parse] at hparse
  split at hparse
  next => cases hparse
  next => exact RangeAddress.covers_start hparse

theorem indices_self (n : Nat) : indices n n = [n] := by
  rw [indices, Nat.add_sub_cancel_left]
  rfl

theorem rangeRows_single {a : CellAddress} (h : t.contains a) : t.rangeRows ⟨a, a⟩ = [[t.value a]] := by
  obtain ⟨hrow, hcolumn⟩ := contains_iff.mp h
  rw [rangeRows, rowIndices, columnIndices, Nat.min_eq_left (Nat.le_sub_one_of_lt hrow),
    Nat.min_eq_left (Nat.le_sub_one_of_lt hcolumn), indices_self, indices_self]
  rfl

def columnRange (t : Table) (column : Nat) : RangeAddress := ⟨⟨0, column⟩, ⟨t.rowCount - 1, column⟩⟩

theorem rangeValues_columnRange {column : Nat} {c : Column} (hc : t.columns[column]? = some c)
    (hlength : c.values.length = t.rowCount) (hrows : 0 < t.rowCount) :
    t.rangeValues (t.columnRange column) = c.values := by
  have hcolumn : column < t.columnCount := (List.getElem?_eq_some_iff.mp hc).1
  have hindices : t.rowIndices (t.columnRange column) = List.range t.rowCount ∧
      t.columnIndices (t.columnRange column) = [column] := by
    rw [rowIndices, columnIndices, columnRange, Nat.min_self,
      Nat.min_eq_left (Nat.le_sub_one_of_lt hcolumn), indices_self, indices, Nat.sub_zero,
      Nat.sub_add_cancel hrows, List.range_eq_range']
    exact ⟨rfl, rfl⟩
  rw [rangeValues, rangeRows, hindices.1, hindices.2, ← List.flatMap_def]
  simp only [List.map_cons, List.map_nil, ← List.map_eq_flatMap]
  refine List.ext_getElem (by simp [hlength]) fun i _ hi => ?_
  simp [value, cell?, hc, hi]

/-- Numbers past the end of a range that is cut off there add nothing. -/
theorem flatMap_indices {α : Type} {f : Nat → List α} {first last n : Nat} (hfirst : first < n)
    (hle : first ≤ last) (hf : ∀ i, n ≤ i → f i = []) :
    (indices first last).flatMap f = (indices first (min last (n - 1))).flatMap f := by
  obtain hlast | hlast := Nat.lt_or_ge last n
  · rw [Nat.min_eq_left (Nat.le_sub_one_of_lt hlast)]
  · have hsplit : indices first last = indices first (n - 1) ++ List.range' n (last + 1 - n) := by
      have hn : n = first + (n - 1 + 1 - first) := by omega
      have hlength : last + 1 - first = n - 1 + 1 - first + (last + 1 - n) := by omega
      rw [indices, indices, hlength, ← List.range'_append_1, ← hn]
    have hpast : (List.range' n (last + 1 - n)).flatMap f = [] :=
      List.flatMap_eq_nil_iff.mpr fun i hi => hf i (List.mem_range'_1.mp hi).1
    rw [Nat.min_eq_right (Nat.le_trans (Nat.sub_le n 1) hlast), hsplit, List.flatMap_append, hpast,
      List.append_nil]

/-- The value at an address of a table that goes on with missing cells. -/
def paddedValue (t : Table) (a : CellAddress) : Value := if t.contains a then t.value a else .missing

/-- All cells of a rectangle, row by row, those outside the table being missing. -/
def paddedValues (t : Table) (r : RangeAddress) : List Value :=
  (indices r.start.row r.stop.row).flatMap fun row =>
    (indices r.start.column r.stop.column).map fun column => t.paddedValue ⟨row, column⟩

theorem length_paddedValues (t : Table) (h : r.Covers r.start) :
    (t.paddedValues r).length = r.height * r.width := by
  have hheight : r.stop.row + 1 - r.start.row = r.height := Nat.sub_add_comm h.1.2
  have hwidth : r.stop.column + 1 - r.start.column = r.width := Nat.sub_add_comm h.2.2
  simp [paddedValues, indices, List.length_flatMap, hheight, hwidth]

theorem rangeValues_eq (hstart : t.contains r.start) :
    t.rangeValues r = (t.rowIndices r).flatMap fun row =>
      (t.columnIndices r).map fun column => t.paddedValue ⟨row, column⟩ := by
  rw [rangeValues, rangeRows, ← List.flatMap_def]
  refine List.flatMap_congr fun i hi => List.map_congr_left fun j hj => ?_
  simp only [rowIndices, columnIndices, indices, List.mem_range'_1] at hi hj
  obtain ⟨hrow, hcolumn⟩ := contains_iff.mp hstart
  refine (if_pos (contains_iff.mpr ⟨?_, ?_⟩)).symm
  · dsimp only
    omega
  · dsimp only
    omega

/-- The cells of a range that are not missing are those of the whole rectangle. -/
theorem filter_paddedValues (hstart : t.contains r.start) (h : r.Covers r.start) :
    (t.paddedValues r).filter (!·.isMissing) = (t.rangeValues r).filter (!·.isMissing) := by
  obtain ⟨hrow, hcolumn⟩ := contains_iff.mp hstart
  have houtside {i j : Nat} (hij : t.rowCount ≤ i ∨ t.columnCount ≤ j) :
      [t.paddedValue ⟨i, j⟩].filter (!·.isMissing) = [] := by
    have hnot : ¬t.contains ⟨i, j⟩ := fun hin =>
      hij.elim (Nat.not_le_of_lt (contains_iff.mp hin).1) (Nat.not_le_of_lt (contains_iff.mp hin).2)
    rw [paddedValue, if_neg hnot]
    rfl
  -- a row past the edge has no cell left, and in any other row the columns past the edge have none
  have hcolumns (i : Nat) := flatMap_indices hcolumn h.2.2 fun j hj => houtside (i := i) (.inr hj)
  rw [rangeValues_eq hstart, paddedValues]
  simp only [List.filter_flatMap, List.map_eq_flatMap, hcolumns]
  exact flatMap_indices hrow h.1.2 fun i hi =>
    List.flatMap_eq_nil_iff.mpr fun j _ => houtside (.inl hi)

end Table

end Tabular
