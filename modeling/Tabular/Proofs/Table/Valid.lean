import Tabular.Proofs.Table.Name
import Tabular.Table.Basic

/-!
# Building valid tables

Columns that fit a number of rows and have different names make a valid table. Columns with an
inferred type fit by construction, and values taken from a column that fits, or missing ones, fit
its type.
-/
namespace Tabular

@[simp] theorem ColumnType.admits_missing (type : ColumnType) : type.admits .missing = true := by
  simp [admits, Value.category]

theorem ColumnType.admits_mixed (v : Value) : ColumnType.mixed.admits v = true := rfl

namespace Column

/-- Every value is admitted by the type. -/
def Typed (c : Column) : Prop := ∀ v ∈ c.values, c.type.admits v = true

/-- The column has a value for each of `n` rows, and its type admits all of them. -/
structure Fits (n : Nat) (c : Column) : Prop where
  length : c.values.length = n
  typed : c.Typed

theorem inferType_admits {values : List Value} {v : Value} (hv : v ∈ values) :
    (inferType values).admits v = true := by
  cases hcategory : v.category with
  | none => simp [ColumnType.admits, hcategory]
  | some type =>
    have hmem : type ∈ values.filterMap Value.category := List.mem_filterMap.mpr ⟨v, hv, hcategory⟩
    unfold inferType
    split
    next heq => simp [heq] at hmem
    next first rest heq =>
      rw [heq, List.mem_cons] at hmem
      split
      next hall =>
        have : type = first := hmem.elim id fun h => by simpa using List.all_eq_true.mp hall _ h
        simp [ColumnType.admits, hcategory, this]
      next => rfl

theorem ofValues_typed (name : String) (values : List Value) : (ofValues name values).Typed :=
  fun _ hv => inferType_admits hv

theorem ofValues_fits (name : String) (values : List Value) :
    (ofValues name values).Fits values.length := ⟨rfl, ofValues_typed name values⟩

theorem ofType_mixed (name : String) (values : List Value) :
    ofType name .mixed values = .ok ⟨name, .mixed, values⟩ := by
  unfold ofType
  split
  next v row hmisfit =>
    have hnot := List.find?_some hmisfit
    simp [ColumnType.admits_mixed] at hnot
  next => rfl

/-- A cell is a value of the column, or missing. -/
theorem Typed.admits_value {c : Column} (h : c.Typed) (row : Nat) :
    c.type.admits (c.value row) = true := by
  rw [value, List.getD_eq_getElem?_getD]
  cases hrow : c.values[row]? with
  | none => simp
  | some v => exact h v (List.mem_of_getElem? hrow)

theorem Typed.takeRows_fits {c : Column} (h : c.Typed) (rows : List Nat) :
    (c.takeRows rows).Fits rows.length := by
  refine ⟨by simp [takeRows], fun v hv => ?_⟩
  obtain ⟨row, -, rfl⟩ := List.mem_map.mp hv
  exact h.admits_value row

end Column

namespace Table

variable {t : Table}

instance (t : Table) : Decidable t.Valid :=
  decidable_of_iff ((∀ c ∈ t.columns, c.values.length = t.rowCount) ∧ t.names.Nodup ∧
      (∀ c ∈ t.columns, ∀ v ∈ c.values, c.type.admits v = true) ∧
      (t.columns = [] → t.rowCount = 0))
    ⟨fun ⟨lengths, names, types, noColumns⟩ => ⟨lengths, names, types, noColumns⟩,
      fun h => ⟨h.lengths, h.names, h.types, h.noColumns⟩⟩

theorem Valid.fits (h : t.Valid) {c : Column} (hc : c ∈ t.columns) : c.Fits t.rowCount :=
  ⟨h.lengths c hc, h.types c hc⟩

theorem Valid.of_fits (hfits : ∀ c ∈ t.columns, c.Fits t.rowCount) (hnames : t.names.Nodup)
    (hempty : t.columns = [] → t.rowCount = 0) : t.Valid :=
  ⟨fun c hc => (hfits c hc).length, hnames, fun c hc => (hfits c hc).typed, hempty⟩

theorem schemaFault?_eq_none {n : Nat} {seen : List String} {columns : List Column} :
    schemaFault? n seen columns = none ↔
      (∀ c ∈ columns, c.values.length = n ∧ c.name ∉ seen) ∧ (columns.map (·.name)).Nodup := by
  induction columns generalizing seen with
  | nil => simp [schemaFault?]
  | cons c rest ih =>
    unfold schemaFault?
    split
    next h => simp [h]
    next h =>
      split
      next hseen => simp [hseen]
      next hseen =>
        rw [ih]
        grind

theorem ofColumns_valid {columns : List Column} (htyped : ∀ c ∈ columns, c.Typed)
    (h : ofColumns columns = .ok t) : t.Valid := by
  unfold ofColumns at h
  dsimp only at h
  split at h
  next => cases h
  next hnone =>
    cases h
    obtain ⟨hlength, hnames⟩ := schemaFault?_eq_none.mp hnone
    refine ⟨fun c hc => (hlength c hc).1, hnames, htyped, fun hnil => ?_⟩
    dsimp only at hnil
    simp [hnil]

/-- Columns of one length with different names make a table. -/
theorem ofColumns_eq_ok {n : Nat} {columns : List Column}
    (hlengths : ∀ c ∈ columns, c.values.length = n) (hnames : (columns.map (·.name)).Nodup)
    (hempty : columns = [] → n = 0) : ofColumns columns = .ok ⟨columns, n⟩ := by
  have hrows : (columns.head?.map (·.values.length)).getD 0 = n := by
    cases columns with
    | nil => exact (hempty rfl).symm
    | cons first rest => exact hlengths first List.mem_cons_self
  have hnone : schemaFault? n [] columns = none :=
    schemaFault?_eq_none.mpr ⟨fun c hc => ⟨hlengths c hc, List.not_mem_nil⟩, hnames⟩
  simp only [ofColumns, hrows, hnone]

/-- Columns of one length make a table if and only if their names differ. -/
theorem ofColumns_eq_ok_iff {n : Nat} {columns : List Column}
    (hlengths : ∀ c ∈ columns, c.values.length = n) (hempty : columns = [] → n = 0) :
    ofColumns columns = .ok t ↔ (columns.map (·.name)).Nodup ∧ t = ⟨columns, n⟩ := by
  constructor
  · intro hok
    have hnames : (columns.map (·.name)).Nodup := by
      unfold ofColumns at hok
      dsimp only at hok
      split at hok
      next => cases hok
      next hnone => exact (schemaFault?_eq_none.mp hnone).2
    rw [ofColumns_eq_ok hlengths hnames hempty] at hok
    exact ⟨hnames, (Except.ok.inj hok).symm⟩
  · rintro ⟨hnames, rfl⟩
    exact ofColumns_eq_ok hlengths hnames hempty

/-- Columns that fit and have different names make a valid table. -/
theorem ofColumns_of_fits {n : Nat} {columns : List Column} (hfits : ∀ c ∈ columns, c.Fits n)
    (hnames : (columns.map (·.name)).Nodup) : ∃ t, ofColumns columns = .ok t ∧ t.Valid := by
  by_cases hnil : columns = []
  · exact ⟨.empty, by rw [hnil]; rfl, by decide⟩
  · have hok := ofColumns_eq_ok (fun c hc => (hfits c hc).length) hnames fun h => absurd h hnil
    exact ⟨_, hok, ofColumns_valid (fun c hc => (hfits c hc).typed) hok⟩

@[simp] theorem length_names (t : Table) : t.names.length = t.columns.length := List.length_map ..

theorem length_of_mem_rows {row : List Value} (h : row ∈ t.rows) : row.length = t.names.length := by
  obtain ⟨i, -, rfl⟩ := List.mem_map.mp h
  simp [Table.row]

theorem Valid.mem_values_of_mem_row (h : t.Valid) {row : List Value} (hrow : row ∈ t.rows) {v : Value}
    (hv : v ∈ row) : ∃ c ∈ t.columns, v ∈ c.values := by
  obtain ⟨i, hi, rfl⟩ := List.mem_map.mp hrow
  obtain ⟨c, hc, rfl⟩ := List.mem_map.mp hv
  have hlt : i < c.values.length := (h.lengths c hc).symm ▸ List.mem_range.mp hi
  refine ⟨c, hc, ?_⟩
  rw [Column.value, List.getD_eq_getElem?_getD, List.getElem?_eq_getElem hlt, Option.getD_some]
  exact List.getElem_mem hlt

@[simp] theorem names_takeRows (t : Table) (rows : List Nat) : (t.takeRows rows).names = t.names := by
  simp only [names, takeRows, List.map_map]
  rfl

theorem Valid.takeRows (h : t.Valid) {rows : List Nat} (hempty : t.columns = [] → rows = []) :
    (t.takeRows rows).Valid := by
  refine .of_fits (fun c hc => ?_) ?_ (fun hnil => ?_)
  · obtain ⟨source, hsource, rfl⟩ := List.mem_map.mp hc
    exact (h.fits hsource).typed.takeRows_fits rows
  · exact names_takeRows t rows ▸ h.names
  · simp [Table.takeRows, hempty (by simpa [Table.takeRows] using hnil)]

theorem Valid.takeRows_of_mem (h : t.Valid) {c : Column} (hc : c ∈ t.columns) (rows : List Nat) :
    (t.takeRows rows).Valid :=
  h.takeRows fun hnil => absurd hc (hnil ▸ List.not_mem_nil)

theorem nodup_append_freshName {columns : List Column} (h : (columns.map (·.name)).Nodup)
    {base : String} {c : Column} (hc : c.name = freshName base (columns.map (·.name))) :
    ((columns ++ [c]).map (·.name)).Nodup := by
  rw [List.map_append, List.map_singleton, List.nodup_append_comm, hc]
  exact List.nodup_cons.mpr ⟨freshName_not_mem _ _, h⟩

@[simp] theorem length_resized (values : List Value) (n : Nat) : (resized values n).length = n := by
  simp only [resized, List.length_append, List.length_take, List.length_replicate]
  omega

theorem resized_of_length_le {values : List Value} {n : Nat} (h : values.length ≤ n) :
    resized values n = values ++ List.replicate (n - values.length) .missing := by
  rw [resized, List.take_of_length_le h]

theorem resized_length (values : List Value) : resized values values.length = values := by
  simp [resized]

theorem mem_resized {values : List Value} {n : Nat} {v : Value} (hv : v ∈ resized values n) :
    v ∈ values ∨ v = .missing :=
  (List.mem_append.mp hv).imp List.mem_of_mem_take List.eq_of_mem_replicate

theorem resized_fits {c : Column} (h : c.Typed) (n : Nat) :
    Column.Fits n { c with values := resized c.values n } := by
  refine ⟨length_resized _ _, fun v hv => ?_⟩
  obtain hv | rfl := mem_resized hv
  · exact h v hv
  · exact ColumnType.admits_missing _

theorem length_addColumns (n : Nat) (columns : List Column) :
    (addColumns n columns).length = columns.length + n := by
  induction n generalizing columns with
  | zero => rfl
  | succ n ih =>
    rw [addColumns, ih, List.length_append, List.length_singleton]
    omega

theorem addColumns_typed {n : Nat} {columns : List Column} (h : ∀ c ∈ columns, c.Typed) :
    ∀ c ∈ addColumns n columns, c.Typed := by
  induction n generalizing columns with
  | zero => exact h
  | succ n ih =>
    refine ih fun c hc => ?_
    obtain hc | hc := List.mem_append.mp hc
    · exact h c hc
    · rw [List.mem_singleton.mp hc]
      exact nofun

theorem nodup_addColumns {n : Nat} {columns : List Column} (h : (columns.map (·.name)).Nodup) :
    ((addColumns n columns).map (·.name)).Nodup := by
  induction n generalizing columns with
  | zero => exact h
  | succ n ih => exact ih (nodup_append_freshName h rfl)

theorem names_setCell (t : Table) (row column : Nat) (v : Value) :
    (t.setCell row column v).names =
      (addColumns (column + 1 - t.columnCount) t.columns).map (·.name) := by
  rw [← List.zipIdx_map_fst 0 (addColumns _ _), List.map_map, names, setCell, List.map_map]
  refine List.map_congr_left fun ⟨c, i⟩ _ => ?_
  dsimp only [Function.comp_apply]
  split <;> rfl

theorem columns_setCell_ne_nil (t : Table) (row column : Nat) (v : Value) :
    (t.setCell row column v).columns ≠ [] := by
  intro hnil
  have hlength := congrArg List.length hnil
  simp only [setCell, List.length_map, List.length_zipIdx, length_addColumns, columnCount,
    List.length_nil] at hlength
  omega

theorem Valid.setCell (h : t.Valid) (row column : Nat) (v : Value) :
    (t.setCell row column v).Valid := by
  have htyped : ∀ c ∈ addColumns (column + 1 - t.columnCount) t.columns, c.Typed :=
    addColumns_typed fun c hc => (h.fits hc).typed
  refine .of_fits (fun c hc => ?_) ?_ (fun hnil => ?_)
  · obtain ⟨⟨source, i⟩, hsource, rfl⟩ := List.mem_map.mp hc
    have hsource := htyped source (List.fst_mem_of_mem_zipIdx hsource)
    dsimp only
    -- the column written to is typed anew, and any other one only gets missing cells
    split
    · refine ⟨?_, Column.ofValues_typed _ _⟩
      simp [Column.ofValues, Table.setCell]
    · exact resized_fits hsource _
  · rw [names_setCell]
    exact nodup_addColumns h.names
  · exact absurd hnil (columns_setCell_ne_nil t row column v)

end Table

end Tabular
