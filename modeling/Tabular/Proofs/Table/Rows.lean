import Tabular.Proofs.Table.Valid

/-!
# Taking rows

The rows taken of a table are whole rows in the order in which they are asked for. To take some of
the rows taken is to take rows of the table itself, and to take all rows in their order changes
nothing.
-/
namespace Tabular

/-- The row of a table behind a number among rows taken of it. -/
def rowAt (rows : List Nat) (k : Nat) : Nat := rows.getD k 0

theorem getElem?_eq_rowAt {k : Nat} (hk : k < rows.length) : rows[k]? = some (rowAt rows k) := by
  simp [rowAt, hk]

theorem rowAt_range {n k : Nat} (hk : k < n) : rowAt (List.range n) k = k := by
  simp [rowAt, hk]

theorem map_rowAt_range (rows : List Nat) : (List.range rows.length).map (rowAt rows) = rows := by
  refine List.ext_getElem (by simp) fun k hk hk' => ?_
  simp [rowAt, hk']

namespace Column

theorem value_mem_or_missing (c : Column) (i : Nat) : c.value i ∈ c.values ∨ c.value i = .missing := by
  rw [value, List.getD_eq_getElem?_getD]
  cases hi : c.values[i]? with
  | none => exact .inr rfl
  | some v => exact .inl (List.mem_of_getElem? hi)

theorem value_of_lt {c : Column} {i : Nat} (hi : i < c.values.length) : c.value i = c.values[i] := by
  simp [value, hi]

theorem value_of_mem_zipIdx {c : Column} {a : Value × Nat} (h : a ∈ c.values.zipIdx) :
    c.value a.2 = a.1 := by
  obtain ⟨i, hi, rfl⟩ := List.mem_iff_getElem.mp h
  have hi : i < c.values.length := by simpa using hi
  simp [value, hi]

theorem map_snd_zipIdx (c : Column) : c.values.zipIdx.map (·.2) = List.range c.values.length := by
  rw [List.zipIdx_map_snd, List.range_eq_range']

theorem value_takeRows {c : Column} {rows : List Nat} {k i : Nat} (h : rows[k]? = some i) :
    (c.takeRows rows).value k = c.value i := by
  rw [value, takeRows, List.getD_eq_getElem?_getD, List.getElem?_map, h]
  rfl

theorem takeRows_range (c : Column) : c.takeRows (List.range c.values.length) = c := by
  refine congrArg (Column.mk c.name c.type) (List.ext_getElem (by simp) fun i hi hi' => ?_)
  simp [value, hi']

end Column

namespace Table

variable {t : Table} {rows : List Nat}

/-- The rows that are taken are whole rows. -/
theorem rows_takeRows (t : Table) (rows : List Nat) : (t.takeRows rows).rows = rows.map t.row := by
  refine List.ext_getElem (by simp [Table.rows, takeRows]) fun i hi hi' => ?_
  have hi : i < rows.length := by simpa using hi'
  simp [Table.rows, takeRows, row, Column.value, Column.takeRows, hi]

theorem column?_takeRows {name : String} {c : Column} (h : t.column? name = some c)
    (rows : List Nat) : (t.takeRows rows).column? name = some (c.takeRows rows) := by
  have hnames : (fun d : Column => decide (d.name = name)) ∘ (·.takeRows rows) =
      fun d : Column => decide (d.name = name) := rfl
  rw [column?, takeRows, List.find?_map, hnames]
  exact congrArg (Option.map _) h

/-- Rows picked of the rows taken are rows of the table. -/
theorem takeRows_takeRows {picks : List Nat} (h : ∀ k ∈ picks, k < rows.length) :
    (t.takeRows rows).takeRows picks = t.takeRows (picks.map (rowAt rows)) := by
  have hcolumn (c : Column) : (c.takeRows rows).takeRows picks = c.takeRows (picks.map (rowAt rows)) := by
    refine congrArg (Column.mk c.name c.type) ?_
    rw [List.map_map]
    exact List.map_congr_left fun k hk => Column.value_takeRows (getElem?_eq_rowAt (h k hk))
  rw [takeRows, takeRows, takeRows, List.map_map, List.length_map]
  exact congrArg (Table.mk · _) (List.map_congr_left fun c _ => hcolumn c)

/-- A table is made of all its rows. -/
theorem takeRows_range (h : ∀ c ∈ t.columns, c.values.length = t.rowCount) :
    t.takeRows (List.range t.rowCount) = t := by
  have hcolumns : t.columns.map (·.takeRows (List.range t.rowCount)) = t.columns :=
    List.map_congr_left (fun c hc => h c hc ▸ c.takeRows_range) |>.trans (List.map_id _)
  rw [takeRows, hcolumns, List.length_range]

end Table

end Tabular
