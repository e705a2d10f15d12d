import Tabular.Proofs.Table.Valid

/-!
# Tables of rows

Rows that have a cell for each of some different names make a table: it has these names, a row for each
of the rows, and in each cell what the row has there.
-/
namespace Tabular.Table

/-- The table that has the given names and the cells of the given rows. -/
def ofGrid (names : List String) (rows : List (List Value)) : Table :=
  ⟨names.zipIdx.map fun (name, j) => .ofValues name (rows.map fun row => row.getD j .missing),
    rows.length⟩

variable {names : List String} {rows : List (List Value)}

@[simp] theorem names_ofGrid (names : List String) (rows : List (List Value)) :
    (ofGrid names rows).names = names := by
  conv_rhs => rw [← List.zipIdx_map_fst 0 names]
  rw [Table.names, ofGrid, List.map_map]
  rfl

@[simp] theorem columnCount_ofGrid (names : List String) (rows : List (List Value)) :
    (ofGrid names rows).columnCount = names.length := by
  rw [columnCount, ← length_names, names_ofGrid]

theorem columns_ofGrid_fits {c : Column} (h : c ∈ (ofGrid names rows).columns) : c.Fits rows.length := by
  obtain ⟨⟨name, j⟩, -, rfl⟩ := List.mem_map.mp h
  have hfits := Column.ofValues_fits name (rows.map fun row => row.getD j .missing)
  rwa [List.length_map] at hfits

/-- Where there are rows, there must be names for their cells. -/
theorem ofGrid_valid (hnames : names.Nodup) (hempty : names = [] → rows = []) :
    (ofGrid names rows).Valid := by
  refine .of_fits (fun c hc => columns_ofGrid_fits hc) ?_ ?_
  · rwa [names_ofGrid]
  · intro hnil
    have hnone : names = [] := by
      rw [← names_ofGrid names rows, Table.names, hnil]
      rfl
    exact congrArg List.length (hempty hnone)

theorem ofRows_of_lengths (hrows : ∀ row ∈ rows, row.length = names.length) :
    ofRows names rows = ofColumns (ofGrid names rows).columns := by
  unfold ofRows
  split
  next row i hwide =>
    have hrow := hrows row (List.fst_mem_of_mem_zipIdx (List.mem_of_find?_eq_some hwide))
    have hwrong := List.find?_some hwide
    simp [hrow] at hwrong
  next => rfl

theorem ofRows_eq_ok (hnames : names.Nodup) (hrows : ∀ row ∈ rows, row.length = names.length)
    (hempty : names = [] → rows = []) : ofRows names rows = .ok (ofGrid names rows) := by
  have hvalid := ofGrid_valid hnames hempty
  rw [ofRows_of_lengths hrows]
  exact ofColumns_eq_ok hvalid.lengths hvalid.names hvalid.noColumns

theorem ofRows_nil (hrows : ∀ row ∈ rows, row = []) : ofRows [] rows = .ok .empty := by
  rw [ofRows_of_lengths fun row hrow => congrArg List.length (hrows row hrow)]
  rfl

/-- The cells of a table are those of its rows. -/
theorem cell?_ofGrid {row : List Value} {i j : Nat} (hrow : rows[i]? = some row)
    (hj : j < names.length) : (ofGrid names rows).cell? i j = some (row.getD j .missing) := by
  have hcolumn : (ofGrid names rows).columns[j]? =
      some (.ofValues names[j] (rows.map fun row => row.getD j .missing)) := by
    simp [ofGrid, hj]
  rw [cell?, hcolumn, Option.bind_some, Column.ofValues, List.getElem?_map, hrow]
  rfl

theorem getD_resized (values : List Value) {n i : Nat} (hi : i < n) :
    (resized values n).getD i .missing = values.getD i .missing := by
  rw [List.getD_eq_getElem?_getD, List.getD_eq_getElem?_getD, resized]
  by_cases hlt : i < values.length
  · rw [List.getElem?_append_left (by simp; omega), List.getElem?_take_of_lt hi]
  · rw [List.getElem?_append_right (by simp; omega), List.getElem?_replicate,
      List.getElem?_eq_none (Nat.not_lt.mp hlt)]
    split <;> rfl

/-- Columns of a table of rows are typed by their values. -/
theorem type_ofGrid {c : Column} (h : c ∈ (ofGrid names rows).columns) :
    c.type = Column.inferType c.values := by
  obtain ⟨⟨name, j⟩, -, rfl⟩ := List.mem_map.mp h
  rfl

/-- The columns of a table are found again in its rows. -/
theorem Valid.map_rows_getD {t : Table} (h : t.Valid) (f : Value → Value) {j : Nat} {c : Column}
    (hc : t.columns[j]? = some c) :
    ((t.rows.map (List.map f)).map fun row => row.getD j .missing) = c.values.map f := by
  have hlength : c.values.length = t.rowCount := h.lengths c (List.mem_of_getElem? hc)
  rw [rows, List.map_map, List.map_map]
  refine List.ext_getElem (by simp [hlength]) fun i hi hi' => ?_
  have hi : i < c.values.length := by simpa using hi'
  simp [row, hc, Column.value, hi]

/-- The table of rows with changed cells has the columns with changed cells. -/
theorem Valid.ofRows_map {t : Table} (h : t.Valid) (hcolumns : t.columns ≠ []) (f : Value → Value) :
    ofRows t.names (t.rows.map (List.map f)) =
      .ok ⟨t.columns.map fun c => .ofValues c.name (c.values.map f), t.rowCount⟩ := by
  have hlengths : ∀ row ∈ t.rows.map (List.map f), row.length = t.names.length := by
    intro row hrow
    obtain ⟨source, hsource, rfl⟩ := List.mem_map.mp hrow
    rw [List.length_map, length_of_mem_rows hsource]
  have hfound : (ofGrid t.names (t.rows.map (List.map f))).columns =
      t.columns.map fun c => .ofValues c.name (c.values.map f) := by
    refine List.ext_getElem (by simp [ofGrid]) fun j hj hj' => ?_
    have hj : j < t.columns.length := by simpa using hj'
    simp only [ofGrid, List.getElem_map, List.getElem_zipIdx, Nat.zero_add]
    rw [h.map_rows_getD f (List.getElem?_eq_getElem hj)]
    simp [Table.names]
  have hcount : (ofGrid t.names (t.rows.map (List.map f))).rowCount = t.rowCount := by
    simp [ofGrid, rows]
  rw [ofRows_eq_ok h.names hlengths fun hnil => absurd (List.map_eq_nil_iff.mp hnil) hcolumns, ← hfound,
    ← hcount]

end Tabular.Table
