import Tabular.Proofs.Table.Range
import Tabular.Proofs.Table.Valid

/-!
# Writing cells

To write a cell is to let the table grow until it holds the cell and then to replace the cell's
value. Growing has no steps of its own: to grow twice is to grow to the greater size, and to grow
before or after a cell is replaced comes to the same. Writes to different cells can therefore change
places, and of two writes to one cell only the second one counts.
-/
namespace Tabular

namespace Column

/-- The column with missing cells added up to a length. -/
def padded (c : Column) (n : Nat) : Column := { c with values := Table.resized c.values n }

/-- The column with the value in a row replaced and its type inferred anew. -/
def overwritten (c : Column) (row : Nat) (v : Value) : Column :=
  .ofValues c.name (c.values.set row v)

end Column

namespace Table

theorem getElem?_resized {values : List Value} {n : Nat} (h : values.length ≤ n) (i : Nat) :
    (resized values n)[i]? =
      if i < values.length then values[i]? else if i < n then some .missing else none := by
  rw [resized_of_length_le h]
  split
  next hi => exact List.getElem?_append_left hi
  next hi =>
    rw [List.getElem?_append_right (Nat.not_lt.mp hi), List.getElem?_replicate]
    exact ite_congr (propext (by omega)) (fun _ => rfl) fun _ => rfl

theorem resized_resized {values : List Value} {m n : Nat} (h : values.length ≤ m) (hmn : m ≤ n) :
    resized (resized values m) n = resized values n := by
  have hlength : (resized values m).length ≤ n := by rwa [length_resized]
  have hfill : m - values.length + (n - m) = n - values.length := by omega
  rw [resized_of_length_le hlength, length_resized, resized_of_length_le h,
    resized_of_length_le (Nat.le_trans h hmn), List.append_assoc, List.replicate_append_replicate,
    hfill]

theorem resized_set {values : List Value} {row n : Nat} (hrow : row < values.length)
    (h : values.length ≤ n) (v : Value) :
    resized (values.set row v) n = (resized values n).set row v := by
  have hset : (values.set row v).length ≤ n := by rwa [List.length_set]
  rw [resized_of_length_le hset, resized_of_length_le h, List.length_set,
    List.set_append_left _ _ hrow]

end Table

namespace Column

/-- Missing cells say nothing about the type of a column. -/
theorem inferType_resized {values : List Value} {n : Nat} (h : values.length ≤ n) :
    inferType (Table.resized values n) = inferType values := by
  have hsame : (Table.resized values n).filterMap Value.category = values.filterMap Value.category := by
    simp [Table.resized_of_length_le h, Value.category, List.filterMap_replicate]
  rw [inferType, inferType, hsame]

variable {c : Column} {row row' n : Nat}

theorem padded_padded {m : Nat} (h : c.values.length ≤ m) (hmn : m ≤ n) :
    (c.padded m).padded n = c.padded n :=
  congrArg (Column.mk c.name c.type) (Table.resized_resized h hmn)

theorem padded_overwritten (hrow : row < c.values.length) (h : c.values.length ≤ n) (v : Value) :
    (c.overwritten row v).padded n = (c.padded n).overwritten row v := by
  have hset : (c.values.set row v).length ≤ n := by rwa [List.length_set]
  rw [padded, overwritten, overwritten, padded, ofValues, ofValues]
  dsimp only
  rw [← Table.resized_set hrow h, inferType_resized hset]

theorem overwritten_comm (hne : row ≠ row') (v w : Value) :
    (c.overwritten row v).overwritten row' w = (c.overwritten row' w).overwritten row v :=
  congrArg (ofValues c.name) (List.set_comm v w hne)

theorem overwritten_overwritten (v w : Value) :
    (c.overwritten row v).overwritten row w = c.overwritten row w :=
  congrArg (ofValues c.name) (List.set_set v)

end Column

namespace Table

def lettered : Nat → List String → List Column
  | 0, _ => []
  | n + 1, names =>
    let name := freshName (columnLetters names.length) names
    ⟨name, .mixed, []⟩ :: lettered n (names ++ [name])

/-- The columns that are added depend on nothing but the names of those that are there. -/
theorem addColumns_eq (n : Nat) (columns : List Column) :
    addColumns n columns = columns ++ lettered n (columns.map (·.name)) := by
  induction n generalizing columns with
  | zero => rw [addColumns, lettered, List.append_nil]
  | succ n ih =>
    rw [addColumns, ih, lettered, List.append_assoc, List.map_append, List.length_map]
    rfl

theorem addColumns_add (m n : Nat) (columns : List Column) :
    addColumns n (addColumns m columns) = addColumns (m + n) columns := by
  induction m generalizing columns with
  | zero => rw [addColumns, Nat.zero_add]
  | succ m ih => rw [addColumns, ih, Nat.succ_add, addColumns]

theorem values_eq_nil_of_mem_lettered {n : Nat} {names : List String} :
    ∀ column ∈ lettered n names, column.values = [] := by
  induction n generalizing names with
  | zero => exact nofun
  | succ n ih => exact List.forall_mem_cons.mpr ⟨rfl, ih⟩

theorem length_le_of_mem_addColumns {k n : Nat} {columns : List Column}
    (h : ∀ c ∈ columns, c.values.length ≤ n) : ∀ c ∈ addColumns k columns, c.values.length ≤ n := by
  intro c hc
  rw [addColumns_eq] at hc
  obtain hc | hc := List.mem_append.mp hc
  · exact h c hc
  · rw [values_eq_nil_of_mem_lettered c hc]
    exact Nat.zero_le n

theorem map_name_padded (columns : List Column) (n : Nat) :
    (columns.map (·.padded n)).map (·.name) = columns.map (·.name) := by
  rw [List.map_map]
  rfl

/-- Columns may be lengthened before or after others are added. -/
theorem map_padded_addColumns {m n : Nat} {columns : List Column}
    (h : ∀ c ∈ columns, c.values.length ≤ m) (hmn : m ≤ n) (k : Nat) :
    (addColumns k (columns.map (·.padded m))).map (·.padded n) =
      (addColumns k columns).map (·.padded n) := by
  have hpadded : (columns.map (·.padded m)).map (·.padded n) = columns.map (·.padded n) := by
    rw [List.map_map]
    exact List.map_congr_left fun c hc => Column.padded_padded (h c hc) hmn
  rw [addColumns_eq, addColumns_eq, map_name_padded, List.map_append, List.map_append, hpadded]

/-- A cell may be replaced before or after columns are added and lengthened. -/
theorem map_padded_addColumns_modify {row i n : Nat} {columns : List Column} (v : Value)
    (h : ∀ c ∈ columns, row < c.values.length ∧ c.values.length ≤ n) (hi : i < columns.length)
    (k : Nat) : (addColumns k (columns.modify i (·.overwritten row v))).map (·.padded n) =
      ((addColumns k columns).map (·.padded n)).modify i (·.overwritten row v) := by
  have hnames : (columns.modify i (·.overwritten row v)).map (·.name) = columns.map (·.name) := by
    refine List.ext_getElem? fun j => ?_
    rw [List.getElem?_map, List.getElem?_map, List.getElem?_modify]
    cases columns[j]? with
    | none => rfl
    | some c => by_cases hj : i = j <;> simp [hj, Column.overwritten, Column.ofValues]
  rw [addColumns_eq, addColumns_eq, hnames]
  refine List.ext_getElem? fun j => ?_
  rw [List.getElem?_map, List.getElem?_modify, List.getElem?_map]
  by_cases hj : j < columns.length
  · rw [List.getElem?_append_left (by rwa [List.length_modify]), List.getElem?_append_left hj,
      List.getElem?_modify, List.getElem?_eq_getElem hj]
    obtain ⟨hrow, hlength⟩ := h _ (List.getElem_mem hj)
    by_cases hij : i = j
    · simp [hij, Column.padded_overwritten hrow hlength]
    · simp [hij]
  · rw [List.getElem?_append_right (by simpa using hj), List.getElem?_append_right (by simpa using hj),
      List.length_modify]
    have hij : i ≠ j := by omega
    simp [hij]

/-- The table with at least so many rows and columns. New cells are missing, and new columns are named
by their letters. -/
def grown (t : Table) (rows columns : Nat) : Table :=
  let rowCount := max t.rowCount rows
  ⟨(addColumns (columns - t.columnCount) t.columns).map (·.padded rowCount), rowCount⟩

def overwritten (t : Table) (row column : Nat) (v : Value) : Table :=
  { t with columns := t.columns.modify column (·.overwritten row v) }

variable {t : Table} {r c r' c' : Nat}

@[simp] theorem rowCount_grown (t : Table) (r c : Nat) : (t.grown r c).rowCount = max t.rowCount r :=
  rfl

@[simp] theorem columnCount_grown (t : Table) (r c : Nat) :
    (t.grown r c).columnCount = max t.columnCount c := by
  simp only [grown, columnCount, List.length_map, length_addColumns]
  omega

theorem lt_rowCount_grown (t : Table) (r c : Nat) : r < (t.grown (r + 1) c).rowCount := by
  rw [rowCount_grown]
  omega

theorem lt_columnCount_grown (t : Table) (r c : Nat) : c < (t.grown r (c + 1)).columnCount := by
  rw [columnCount_grown]
  omega

theorem lengths_grown (t : Table) (r c : Nat) :
    ∀ column ∈ (t.grown r c).columns, column.values.length = max t.rowCount r := by
  intro column hcolumn
  obtain ⟨source, -, rfl⟩ := List.mem_map.mp hcolumn
  exact length_resized _ _

/-- To write a cell is to let the table grow and to replace the cell. -/
theorem setCell_eq (t : Table) (r c : Nat) (v : Value) :
    t.setCell r c v = (t.grown (r + 1) (c + 1)).overwritten r c v := by
  refine congrArg (Table.mk · _) (List.ext_getElem? fun i => ?_)
  rw [List.getElem?_map, List.getElem?_zipIdx, List.getElem?_modify, grown, List.getElem?_map]
  cases (addColumns (c + 1 - t.columnCount) t.columns)[i]? with
  | none => rfl
  | some column =>
    by_cases hi : i = c
    · simp [hi, Column.padded, Column.overwritten]
    · simp [hi, Ne.symm hi, Column.padded]

theorem grown_grown (h : t.Valid) : (t.grown r c).grown r' c' = t.grown (max r r') (max c c') := by
  have hrows : max (max t.rowCount r) r' = max t.rowCount (max r r') := Nat.max_assoc ..
  have hcolumns : c - t.columnCount + (c' - max t.columnCount c) = max c c' - t.columnCount := by
    omega
  have hlengths : ∀ column ∈ addColumns (c - t.columnCount) t.columns,
      column.values.length ≤ max t.rowCount r :=
    length_le_of_mem_addColumns fun column hcolumn =>
      Nat.le_trans (Nat.le_of_eq (h.lengths column hcolumn)) (Nat.le_max_left ..)
  rw [grown, columnCount_grown, rowCount_grown, hrows]
  refine congrArg (Table.mk · _) ?_
  rw [← hcolumns, ← addColumns_add]
  exact map_padded_addColumns hlengths (by omega) _

/-- A cell of the table may be replaced before or after the table grows. -/
theorem grown_overwritten (h : ∀ column ∈ t.columns, column.values.length = t.rowCount)
    (hr : r < t.rowCount) (hc : c < t.columnCount) (v : Value) :
    (t.overwritten r c v).grown r' c' = (t.grown r' c').overwritten r c v := by
  have hcount : (t.overwritten r c v).columnCount = t.columnCount := List.length_modify ..
  rw [grown, hcount]
  refine congrArg (Table.mk · _) (map_padded_addColumns_modify v (fun column hcolumn => ?_) hc _)
  rw [h column hcolumn]
  exact ⟨hr, Nat.le_max_left ..⟩

theorem overwritten_comm (hne : (r, c) ≠ (r', c')) (v w : Value) :
    (t.overwritten r c v).overwritten r' c' w = (t.overwritten r' c' w).overwritten r c v := by
  refine congrArg (Table.mk · _) ?_
  by_cases hc : c = c'
  · subst hc
    have hr : r ≠ r' := fun hr => hne (by rw [hr])
    rw [overwritten, overwritten, List.modify_modify_eq, List.modify_modify_eq]
    exact congrArg (t.columns.modify c) (funext fun column => Column.overwritten_comm hr v w)
  · exact List.modify_modify_ne _ _ _ hc

theorem overwritten_overwritten (v w : Value) :
    (t.overwritten r c v).overwritten r c w = t.overwritten r c w := by
  refine congrArg (Table.mk · _) ?_
  rw [overwritten, List.modify_modify_eq]
  exact congrArg (t.columns.modify c) (funext fun column => Column.overwritten_overwritten v w)

/-- To write two cells is to let the table grow to hold both and to replace one after the other. -/
theorem Valid.setCell_setCell (h : t.Valid) (v w : Value) :
    (t.setCell r c v).setCell r' c' w =
      ((t.grown (max (r + 1) (r' + 1)) (max (c + 1) (c' + 1))).overwritten r c v).overwritten r' c' w := by
  rw [setCell_eq, setCell_eq, grown_overwritten (lengths_grown t _ _) (lt_rowCount_grown t _ _)
    (lt_columnCount_grown t _ _), grown_grown h]

/-- Writes to different cells can change places, and a cell that is written twice holds what was
written last, as if nothing had been written before. -/
theorem Valid.setCell_independent (h : t.Valid) (r c r' c' : Nat) (v w : Value) :
    ((r, c) ≠ (r', c') → (t.setCell r c v).setCell r' c' w = (t.setCell r' c' w).setCell r c v) ∧
      ((r, c) = (r', c') → (t.setCell r c v).setCell r' c' w = t.setCell r' c' w) := by
  constructor
  · intro hne
    rw [h.setCell_setCell, h.setCell_setCell, overwritten_comm hne, Nat.max_comm (r + 1),
      Nat.max_comm (c + 1)]
  · intro heq
    obtain ⟨rfl, rfl⟩ := Prod.mk.inj heq
    rw [h.setCell_setCell, overwritten_overwritten, Nat.max_self, Nat.max_self, ← setCell_eq]

/-- A column that is named by a letter that a later one would have. -/
def stock : Table := ⟨[⟨"C", .number, [.number 4.0]⟩], 1⟩

theorem setCell_independent_stock :
    stock.Valid ∧ (2, 2) ≠ (1, 1) ∧
      (stock.setCell 2 2 (.text "sold")).setCell 1 1 (.boolean true) =
        (stock.setCell 1 1 (.boolean true)).setCell 2 2 (.text "sold") ∧
      (stock.setCell 2 2 (.text "sold")).setCell 2 2 (.number 1.0) = stock.setCell 2 2 (.number 1.0) ∧
      (stock.setCell 2 2 (.text "sold")).names = ["C", "B", "C_2"] := by
  have hvalid : stock.Valid := by decide
  exact ⟨hvalid, by decide, (hvalid.setCell_independent 2 2 1 1 _ _).1 (by decide),
    (hvalid.setCell_independent 2 2 2 2 _ _).2 rfl, by decide +kernel⟩

theorem cell?_overwritten (h : ∀ column ∈ t.columns, column.values.length = t.rowCount)
    (hr : r < t.rowCount) (hc : c < t.columnCount) (v : Value) :
    (t.overwritten r c v).cell? r c = some v := by
  have hcolumn : t.columns[c]? = some t.columns[c] := List.getElem?_eq_getElem hc
  have hlength : r < t.columns[c].values.length := by rwa [h _ (List.getElem_mem hc)]
  rw [cell?, overwritten, List.getElem?_modify_eq, hcolumn]
  exact List.getElem?_set_self hlength

theorem cell?_overwritten_of_ne {i j : Nat} (hne : (i, j) ≠ (r, c)) (v : Value) :
    (t.overwritten r c v).cell? i j = t.cell? i j := by
  rw [cell?, cell?, overwritten]
  dsimp only
  by_cases hj : c = j
  · have hi : r ≠ i := fun hi => hne (by rw [hi, hj])
    rw [hj, List.getElem?_modify_eq]
    cases t.columns[j]? with
    | none => rfl
    | some column => exact List.getElem?_set_ne hi
  · rw [List.getElem?_modify_ne _ _ hj]

theorem getElem?_columns_grown {j : Nat} (hj : j < t.columnCount) :
    (t.grown r c).columns[j]? = t.columns[j]?.map (·.padded (max t.rowCount r)) := by
  rw [grown, addColumns_eq]
  dsimp only
  rw [List.getElem?_map, List.getElem?_append_left hj]

/-- Columns that are added hold missing cells only. -/
theorem exists_getElem?_columns_grown {j : Nat} (hold : ¬j < t.columnCount)
    (hj : j < (t.grown r c).columnCount) : ∃ column : Column, column.values = [] ∧
      (t.grown r c).columns[j]? = some (column.padded (max t.rowCount r)) := by
  have hlength : j < (addColumns (c - t.columnCount) t.columns).length := by
    rwa [← List.length_map (f := (·.padded (max t.rowCount r)))]
  obtain ⟨column, hcolumn⟩ : ∃ column, (addColumns (c - t.columnCount) t.columns)[j]? = some column :=
    ⟨_, List.getElem?_eq_getElem hlength⟩
  refine ⟨column, ?_, (List.getElem?_map ..).trans (congrArg (Option.map _) hcolumn)⟩
  rw [addColumns_eq, List.getElem?_append_right (Nat.not_lt.mp hold)] at hcolumn
  exact values_eq_nil_of_mem_lettered _ (List.mem_of_getElem? hcolumn)

/-- A cell of a table that has grown is the cell that was there, or missing. -/
theorem cell?_grown (h : ∀ column ∈ t.columns, column.values.length = t.rowCount) {a : CellAddress}
    (ha : (t.grown r c).contains a) : (t.grown r c).cell? a.row a.column =
      if t.contains a then t.cell? a.row a.column else some .missing := by
  obtain ⟨hrow, hcolumn⟩ := contains_iff.mp ha
  rw [rowCount_grown] at hrow
  have hpadded {values : List Value} (hlength : values.length ≤ max t.rowCount r) :
      (resized values (max t.rowCount r))[a.row]? =
        if a.row < values.length then values[a.row]? else some .missing := by
    rw [getElem?_resized hlength, if_pos hrow]
  rw [cell?, cell?]
  by_cases hold : a.column < t.columnCount
  · have hsource : t.columns[a.column]? = some t.columns[a.column] := List.getElem?_eq_getElem hold
    have hlength := h _ (List.getElem_mem hold)
    rw [getElem?_columns_grown hold, hsource]
    refine (hpadded (by omega)).trans ?_
    exact ite_congr (by simp [contains, hlength, hold]) (fun _ => rfl) fun _ => rfl
  · obtain ⟨column, hvalues, hsource⟩ := exists_getElem?_columns_grown hold hcolumn
    have hnot : ¬t.contains a := fun hin => hold (contains_iff.mp hin).2
    have hlength : column.values.length = 0 := by rw [hvalues, List.length_nil]
    rw [hsource, if_neg hnot]
    refine (hpadded (by omega)).trans (if_neg ?_)
    rw [hlength]
    exact Nat.not_lt_zero _

theorem columnCount_setCell (t : Table) (r c : Nat) (v : Value) :
    (t.setCell r c v).columnCount = max t.columnCount (c + 1) := by
  rw [setCell_eq, columnCount, overwritten, List.length_modify]
  exact columnCount_grown t (r + 1) (c + 1)

theorem cell?_setCell (t : Table) (r c : Nat) (v : Value) : (t.setCell r c v).cell? r c = some v := by
  rw [setCell_eq, cell?_overwritten (lengths_grown t _ _) (lt_rowCount_grown t _ _)
    (lt_columnCount_grown t _ _)]

/-- Other cells than the one written to stay, or are missing if they are new. -/
theorem Valid.cell?_setCell_of_ne (h : t.Valid) {a b : CellAddress} (hne : b ≠ a) {v : Value}
    (hb : (t.setCell a.row a.column v).contains b) :
    (t.setCell a.row a.column v).cell? b.row b.column =
      if t.contains b then t.cell? b.row b.column else some .missing := by
  have hpair : (b.row, b.column) ≠ (a.row, a.column) := by
    intro heq
    obtain ⟨hrow, hcolumn⟩ := Prod.mk.inj heq
    exact hne (congrArg₂ CellAddress.mk hrow hcolumn)
  have hgrown : (t.grown (a.row + 1) (a.column + 1)).contains b := by
    obtain ⟨hrow, hcolumn⟩ := contains_iff.mp hb
    rw [columnCount_setCell] at hcolumn
    rw [contains_iff, columnCount_grown]
    exact ⟨hrow, hcolumn⟩
  rw [setCell_eq, cell?_overwritten_of_ne hpair, cell?_grown h.lengths hgrown]

/-- The second table is the first one with a value written into a cell. It has grown as far as the cell
needs it, and nothing else has changed. -/
structure Receives (t : Table) (a : CellAddress) (v : Value) (t' : Table) : Prop where
  valid : t'.Valid
  rowCount : t'.rowCount = max t.rowCount (a.row + 1)
  columnCount : t'.columnCount = max t.columnCount (a.column + 1)
  written : t'.cell? a.row a.column = some v
  kept : ∀ b, b ≠ a → t.contains b → t'.cell? b.row b.column = t.cell? b.row b.column
  added : ∀ b, b ≠ a → t'.contains b → ¬t.contains b → t'.cell? b.row b.column = some .missing
  names : t.names <+: t'.names
  types : ∀ j, j < t.columnCount → j ≠ a.column →
    t'.columns[j]?.map (·.type) = t.columns[j]?.map (·.type)

theorem Valid.receives_setCell (h : t.Valid) (a : CellAddress) (v : Value) :
    t.Receives a v (t.setCell a.row a.column v) where
  valid := h.setCell a.row a.column v
  rowCount := rfl
  columnCount := columnCount_setCell t a.row a.column v
  written := cell?_setCell t a.row a.column v
  kept := by
    intro b hne hb
    have hin : (t.setCell a.row a.column v).contains b := by
      obtain ⟨hrow, hcolumn⟩ := contains_iff.mp hb
      rw [contains_iff, columnCount_setCell]
      exact ⟨Nat.lt_of_lt_of_le hrow (Nat.le_max_left ..), by omega⟩
    rw [h.cell?_setCell_of_ne hne hin, if_pos hb]
  added := by
    intro b hne hin hb
    rw [h.cell?_setCell_of_ne hne hin, if_neg hb]
  names := by
    rw [names_setCell, addColumns_eq, List.map_append]
    exact List.prefix_append _ _
  types := by
    intro j hj hne
    rw [setCell_eq, overwritten, List.getElem?_modify_ne _ _ hne.symm, getElem?_columns_grown hj,
      Option.map_map]
    rfl

end Table

end Tabular
