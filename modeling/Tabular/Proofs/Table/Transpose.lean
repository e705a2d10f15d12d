import Tabular.Proofs.Outcome
import Tabular.Proofs.Table.Valid
import Tabular.Table.Cut

/-!
# Turning a table on its side

Every table can be turned on its side, as the rows of a table are of one length and the names made for
them differ. A table that is turned twice has its columns again, each with its name on top of its
cells, behind a column of the names made in between.
-/
namespace Tabular.Table

variable {t : Table}

/-- The columns of a table turned on its side: one of the names, and one for each row. -/
def sideways (t : Table) : List Column :=
  ⟨"Column", .mixed, t.names.map .text⟩ ::
    (List.range t.rowCount).map fun i => ⟨"Row" ++ natText (i + 1), .mixed, t.row i⟩

theorem names_sideways (t : Table) : t.sideways.map (·.name) =
    "Column" :: (List.range t.rowCount).map fun i => "Row" ++ natText (i + 1) := by
  rw [sideways, List.map_cons, List.map_map]
  rfl

theorem nodup_names_sideways (t : Table) : (t.sideways.map (·.name)).Nodup := by
  rw [names_sideways]
  refine List.nodup_cons.mpr ⟨fun hmem => ?_, List.nodup_range.map fun i j hij => ?_⟩
  · obtain ⟨i, -, hi⟩ := List.mem_map.mp hmem
    have := congrArg String.toList hi
    simp at this
  · have := natText_injective (String.append_right_inj _ |>.mp hij)
    omega

theorem sideways_fits (t : Table) : ∀ c ∈ t.sideways, c.Fits t.columnCount := by
  intro c hc
  obtain rfl | hc := List.mem_cons.mp hc
  · exact ⟨by simp [columnCount], fun _ _ => rfl⟩
  · obtain ⟨i, -, rfl⟩ := List.mem_map.mp hc
    exact ⟨by simp [row, columnCount], fun _ _ => rfl⟩

theorem transpose_eq_ok (t : Table) : t.transpose = .ok ⟨t.sideways, t.columnCount⟩ := by
  have hrows : (List.range t.rowCount).mapM (fun i =>
      Column.ofType ("Row" ++ natText (i + 1)) .mixed (t.row i)) =
      .ok ((List.range t.rowCount).map fun i => ⟨"Row" ++ natText (i + 1), .mixed, t.row i⟩) :=
    mapM_eq_ok fun i _ => Column.ofType_mixed _ _
  rw [transpose, Column.ofType_mixed, hrows]
  exact ofColumns_eq_ok (fun c hc => (t.sideways_fits c hc).length) t.nodup_names_sideways
    fun hnil => absurd hnil (List.cons_ne_nil _ _)

/-- A row of a table turned on its side is a column with its name in front. -/
theorem row_sideways {j : Nat} {c : Column} (hc : t.columns[j]? = some c)
    (hlength : c.values.length = t.rowCount) (n : Nat) :
    row ⟨t.sideways, n⟩ j = .text c.name :: c.values := by
  have hname : Column.value ⟨"Column", .mixed, t.names.map .text⟩ j = .text c.name := by
    simp [Column.value, names, hc]
  have hcells : (List.range t.rowCount).map (fun i => (t.row i).getD j .missing) = c.values := by
    refine List.ext_getElem (by simp [hlength]) fun i hi hi' => ?_
    simp [row, hc, Column.value, hi']
  rw [row, sideways, List.map_cons, List.map_map, hname]
  exact congrArg _ hcells

/-- The columns of a table turned twice: each column again, its name on top of its cells. -/
theorem Valid.sideways_sideways (h : t.Valid) :
    sideways ⟨t.sideways, t.columnCount⟩ =
      ⟨"Column", .mixed, .text "Column" ::
          (List.range t.rowCount).map fun i => .text ("Row" ++ natText (i + 1))⟩ ::
        t.columns.zipIdx.map fun (c, j) =>
          ⟨"Row" ++ natText (j + 1), .mixed, .text c.name :: c.values⟩ := by
  have hnames : (Table.names ⟨t.sideways, t.columnCount⟩).map Value.text =
      .text "Column" :: (List.range t.rowCount).map fun i => .text ("Row" ++ natText (i + 1)) := by
    rw [Table.names, names_sideways, List.map_cons, List.map_map]
    rfl
  rw [sideways, hnames]
  refine congrArg _ (List.ext_getElem (by simp [columnCount]) fun j hj _ => ?_)
  have hj : j < t.columns.length := by simpa [columnCount] using hj
  have hc := List.getElem?_eq_getElem hj
  simp [row_sideways hc (h.lengths _ (List.getElem_mem hj))]

/-- A table can be turned on its side, and once more: then each column is back, with its name on top
of its cells, behind a column of the names that the first turn has made. -/
theorem Valid.transpose_transpose (h : t.Valid) :
    ∃ once, t.transpose = .ok once ∧ once.transpose = .ok
      ⟨⟨"Column", .mixed, .text "Column" ::
          (List.range t.rowCount).map fun i => .text ("Row" ++ natText (i + 1))⟩ ::
        t.columns.zipIdx.map fun (c, j) =>
          ⟨"Row" ++ natText (j + 1), .mixed, .text c.name :: c.values⟩, t.rowCount + 1⟩ := by
  have hcount : columnCount ⟨t.sideways, t.columnCount⟩ = t.rowCount + 1 := by
    simp [columnCount, sideways]
  refine ⟨_, t.transpose_eq_ok, ?_⟩
  rw [transpose_eq_ok, h.sideways_sideways, hcount]

/-- A menu of two dishes, one of them without a price. -/
def menu : Table :=
  ⟨[⟨"dish", .text, [.text "soup", .text "stew"]⟩, ⟨"price", .number, [.number 4.5, .missing]⟩], 2⟩

theorem transpose_transpose_menu :
    menu.Valid ∧ Table.empty.Valid ∧
    (∃ once, menu.transpose = .ok once ∧ once.transpose = .ok
      ⟨[⟨"Column", .mixed, [.text "Column", .text "Row1", .text "Row2"]⟩,
        ⟨"Row1", .mixed, [.text "dish", .text "soup", .text "stew"]⟩,
        ⟨"Row2", .mixed, [.text "price", .number 4.5, .missing]⟩], 3⟩) ∧
    ∃ once, Table.empty.transpose = .ok once ∧
      once.transpose = .ok ⟨[⟨"Column", .mixed, [.text "Column"]⟩], 1⟩ := by
  have hmenu : menu.Valid := by decide
  have hempty : Table.empty.Valid := by decide
  exact ⟨hmenu, hempty, hmenu.transpose_transpose, hempty.transpose_transpose⟩

end Tabular.Table
