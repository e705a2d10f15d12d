import Tabular.Proofs.Document.Distinct
import Tabular.Proofs.Document.Filling
import Tabular.Proofs.Document.Reader
import Tabular.Proofs.Outcome
import Tabular.Proofs.Table.Grid
import Tabular.Proofs.Text.Encoding

/-!
# Reading written tables of JSON

A table without errors is read again from the document that it is written as: the fields of each row
are read in the order of the columns, so that the columns are found again in that order.
-/
namespace Tabular.Document

/-- The number is written as a whole number, without a point. -/
def IsWhole (x : Float) : Prop := Number.isIntegral x ∧ Number.wholePart x < maxWhole

/-- The number is read back from the shortest decimal that it is written as. -/
def ReadsBack (x : Float) : Prop :=
  readNumber? (Number.Layout.interchange.text x) = some (.number x, [])

/-- A cell that a document holds unharmed: no error, and no number that is infinite or `-0`. -/
def Plain (v : Value) : Prop :=
  v.isError = false ∧ ∀ x ∈ v.number?, x.isFinite = true ∧ x ≠ -0.0

instance (v : Value) : Decidable (Plain v) :=
  inferInstanceAs (Decidable (v.isError = false ∧ ∀ x ∈ v.number?, x.isFinite = true ∧ x ≠ -0.0))

/-- The document that is read where a cell was written. -/
def reread : Value → Document
  | .number x => number x.toFloat
  | .text s => text s
  | .boolean b => boolean b
  | .missing => null
  | .error e => text e.literal

variable {v : Value}

theorem isRead_ofValue {inner? : Option (Reader Document)} (hplain : Plain v)
    (hback : ∀ x ∈ v.number?, ¬IsWhole x.toFloat → ReadsBack x.toFloat) (level : Nat) :
    IsRead (readValueWith inner?) (write level (ofValue v)) (reread v) := by
  cases v with
  | number x =>
    obtain ⟨hx, hzero⟩ := hplain.2 x rfl
    rw [ofValue]
    by_cases hwhole : Number.isIntegral x.toFloat ∧ Number.wholePart x.toFloat < maxWhole
    · have hzero : x.toFloat ≠ -0.0 := by
        intro heq
        rw [← Double.ofFloat_toFloat (Double.isNaN_of_isFinite hx), heq] at hzero
        exact hzero (by decide)
      rw [if_pos hwhole, write]
      exact .number (readNumber?_intText hwhole.1 (hwhole.2.trans (by decide)) hzero)
    · have hfinite : x.toFloat.isFinite = true := hx
      rw [if_neg hwhole, if_pos hx, write, writeNumber, if_pos hfinite]
      exact .number (hback x rfl hwhole)
  | text s =>
    rw [ofValue, write]
    exact .text s
  | boolean b => exact .boolean b level
  | missing =>
    rw [ofValue, write]
    exact .null
  | error e => cases hplain.1

theorem toCell_reread (hplain : Plain v) (name : String) : toCell name (reread v) = .ok v := by
  cases v with
  | number x =>
    have hx := (hplain.2 x rfl).1
    have hfinite : x.toFloat.isFinite = true := hx
    rw [reread, toCell, if_pos hfinite, Double.ofFloat_toFloat (Double.isNaN_of_isFinite hx)]
  | error e => cases hplain.1
  | _ => rfl

theorem writeItems_eq_map (level : Nat) (items : List Document) :
    writeItems level items = items.map (write level) := by
  induction items with
  | nil => rfl
  | cons item rest ih => rw [writeItems, List.map_cons, ih]

theorem writeFields_eq_map (level : Nat) (fields : List (String × Document)) :
    writeFields level fields =
      fields.map fun (name, d) => writeText name ++ ':' :: ' ' :: write level d := by
  induction fields with
  | nil => rfl
  | cons field rest ih => rw [writeFields, List.map_cons, ih]

/-- The fields of a row, each with its column's name. -/
def rowFields (names : List String) (row : List Value) (f : Value → Document) :
    List (String × Document) := (names.zip row).map fun (name, v) => (name, f v)

theorem zip_map_eq (names : List String) (row : List Value) (f : Value → Document) :
    names.zip (row.map f) = rowFields names row f := by
  rw [List.zip_map_right]
  rfl

variable {names : List String} {row : List Value}

theorem isRead_row {inner? : Option (Reader Document)} (hnames : names.Nodup)
    (hlength : row.length = names.length) (hplain : ∀ v ∈ row, Plain v)
    (hback : ∀ v ∈ row, ∀ x ∈ v.number?, ¬IsWhole x.toFloat → ReadsBack x.toFloat) (level : Nat) :
    IsRead (readValueWith (some (readValueWith inner?)))
      (write level (object (names.zip (row.map ofValue)))) (object (rowFields names row reread)) := by
  have hfields : List.Forall₂ (IsRead (readField (readValueWith inner?)))
      (writeFields (level + 1) (names.zip (row.map ofValue))) (rowFields names row reread) := by
    rw [zip_map_eq, writeFields_eq_map, rowFields, rowFields, List.map_map,
      List.forall₂_map_left_iff, List.forall₂_map_right_iff, List.forall₂_same]
    rintro ⟨name, v⟩ hmem
    have hv := (List.of_mem_zip hmem).2
    exact (isRead_ofValue (hplain v hv) (hback v hv) _).field name
  have hnodup : ((rowFields names row reread).map (·.1)).Nodup := by
    have hfst : (rowFields names row reread).map (·.1) = names := by
      rw [rowFields, List.map_map]
      exact List.map_fst_zip (by omega)
    rwa [hfst]
  rw [write, ← ofFields_of_nodup hnodup]
  exact .object hfields level

theorem toCells_rowFields (hplain : ∀ v ∈ row, Plain v) (index : Nat) :
    (object (rowFields names row reread)).toCells index = .ok (names.zip row) := by
  have hfields (p : String × Value) (hp : p ∈ names.zip row) :
      (do return (p.1, ← toCell p.1 (reread p.2)) : Except Error (String × Value)) = .ok (id p) := by
    rw [toCell_reread (hplain p.2 (List.of_mem_zip hp).2)]
    rfl
  rw [toCells, rowFields, List.mapM_map]
  exact (mapM_eq_ok hfields).trans (congrArg Except.ok (List.map_id _))

/-- The cells of a row are found under the names of their columns. -/
theorem map_cellUnder_zip (hnames : names.Nodup) (hlength : row.length = names.length) :
    names.map (cellUnder (names.zip row)) = row := by
  induction names generalizing row with
  | nil => exact (List.length_eq_zero_iff.mp hlength).symm
  | cons name names ih =>
    obtain ⟨v, row, rfl⟩ := List.exists_cons_of_length_eq_add_one hlength
    obtain ⟨hname, hnames⟩ := List.nodup_cons.mp hnames
    have hrest := ih hnames (Nat.succ.inj hlength)
    rw [List.map_cons, List.zip_cons_cons, cellUnder, List.lookup_cons_self, Option.getD_some]
    refine congrArg (v :: ·) (Eq.trans (List.map_congr_left fun other hother => ?_) hrest)
    have hne : (other == name) = false := beq_false_of_ne fun heq => hname (heq ▸ hother)
    rw [cellUnder, cellUnder, List.lookup_cons, hne]

/-- The names of all rows are those of the columns, in their order. -/
theorem unionNames_zip (hnames : names.Nodup) {rows : List (List Value)} (hrows : rows ≠ [])
    (hlength : ∀ row ∈ rows, row.length = names.length) :
    unionNames (rows.map names.zip) = names := by
  have hfst : namesIn (rows.map names.zip) = rows.flatMap fun _ => names := by
    rw [namesIn, List.flatMap_map]
    exact List.flatMap_congr fun row hrow => List.map_fst_zip (hlength row hrow).ge
  obtain ⟨row, rest, rfl⟩ := List.exists_cons_of_ne_nil hrows
  have hnone : (rest.flatMap fun _ => names).removeAll names = [] := by
    rw [List.removeAll, List.filter_eq_nil_iff]
    intro name hname
    obtain ⟨_, -, hmem⟩ := List.mem_flatMap.mp hname
    simpa using hmem
  rw [unionNames, hfst, List.flatMap_cons, List.eraseDups_append, eraseDups_of_nodup hnames, hnone,
    List.eraseDups_nil, List.append_nil]

section
variable {t : Table} (ht : t.Valid) (hplain : ∀ c ∈ t.columns, ∀ v ∈ c.values, Plain v)
include ht hplain

/-- The written table is read as the list of its rows. -/
theorem parse?_toText (hback : ∀ c ∈ t.columns, ∀ v ∈ c.values, ∀ x ∈ v.number?,
    ¬IsWhole x.toFloat → ReadsBack x.toFloat) : parse? (toText (ofTable t)).toList =
      some (list (t.rows.map fun row => object (rowFields t.names row reread))) := by
  have hrows : List.Forall₂ (IsRead (readValue (maxDepth - 1)))
      (writeItems 1 (t.rows.map fun row => object (t.names.zip (row.map ofValue))))
      (t.rows.map fun row => object (rowFields t.names row reread)) := by
    rw [writeItems_eq_map, List.map_map, List.forall₂_map_left_iff, List.forall₂_map_right_iff,
      List.forall₂_same]
    intro row hrow
    refine isRead_row ht.names (Table.length_of_mem_rows hrow) (fun v hv => ?_) (fun v hv => ?_) 1
    · obtain ⟨c, hc, hv⟩ := ht.mem_values_of_mem_row hrow hv
      exact hplain c hc v hv
    · obtain ⟨c, hc, hv⟩ := ht.mem_values_of_mem_row hrow hv
      exact hback c hc v hv
  have hnone : ∀ c ∈ ([] : List Char), isSpace c = true := nofun
  have hread : readValue maxDepth (write 0 (ofTable t) ++ ['\n']) = some (_, ['\n']) :=
    (IsRead.list hrows 0).read_append hnone (endsNumber_newLine 0 [])
  rw [toText, String.toList_ofList, parse?, hread]
  rfl

/-- The columns are found again in the rows. -/
theorem toTable_rows (hcolumns : t.columns ≠ []) (hrows : 0 < t.rowCount) :
    toTable (list (t.rows.map fun row => object (rowFields t.names row reread))) =
      .ok ⟨t.columns.map fun c => .ofValues c.name c.values, t.rowCount⟩ := by
  have hcells (p : List Value × Nat) (hp : p ∈ t.rows.zipIdx) :
      (object (rowFields t.names p.1 reread)).toCells p.2 = .ok (t.names.zip p.1) := by
    refine toCells_rowFields (fun v hv => ?_) p.2
    obtain ⟨c, hc, hv⟩ := ht.mem_values_of_mem_row (List.fst_mem_of_mem_zipIdx hp) hv
    exact hplain c hc v hv
  have hmapM : ((t.rows.map fun row => object (rowFields t.names row reread)).zipIdx.mapM
      fun p => p.1.toCells p.2) = .ok (t.rows.map t.names.zip) := by
    rw [List.zipIdx_map, List.mapM_map]
    refine (mapM_eq_ok hcells).trans ?_
    conv_rhs => rw [← List.zipIdx_map_fst 0 t.rows, List.map_map]
    rfl
  have hnames : unionNames (t.rows.map t.names.zip) = t.names := by
    refine unionNames_zip ht.names (List.ne_nil_of_length_pos ?_) fun row => Table.length_of_mem_rows
    simpa [Table.rows] using hrows
  have hlookup : ((t.rows.map t.names.zip).map fun cells => t.names.map (cellUnder cells)) =
      t.rows.map (List.map id) := by
    rw [List.map_map]
    refine List.map_congr_left fun row hrow => ?_
    rw [List.map_id]
    exact map_cellUnder_zip ht.names (Table.length_of_mem_rows hrow)
  have hdistinct : ∀ cells ∈ t.rows.map t.names.zip, (cells.map (·.1)).Nodup := by
    intro cells hmem
    obtain ⟨row, hrow, rfl⟩ := List.mem_map.mp hmem
    rw [List.map_fst_zip (Table.length_of_mem_rows hrow).ge]
    exact ht.names
  rw [toTable_of_toCells hmapM hdistinct, hnames, hlookup, ht.ofRows_map hcolumns id]
  simp only [List.map_id]

end

/-- A table is read from JSON as it was written: with the same names, rows and cells, and each column
of the type of its values. Numbers written as the shortest decimal that denotes them are taken to be
read back from it. -/
theorem readTable_ofTable {t : Table} (ht : t.Valid) (hcolumns : t.columns ≠ [])
    (hrows : 0 < t.rowCount) (hplain : ∀ c ∈ t.columns, ∀ v ∈ c.values, Plain v)
    (hback : ∀ c ∈ t.columns, ∀ v ∈ c.values, ∀ x ∈ v.number?, ¬IsWhole x.toFloat → ReadsBack x.toFloat) :
    ∃ t', readTable (Text.decode (toText (ofTable t)).toUTF8) = .ok t' ∧
      t'.names = t.names ∧ t'.rowCount = t.rowCount ∧
      t'.columns.map (·.values) = t.columns.map (·.values) ∧
      ∀ c ∈ t'.columns, c.type = Column.inferType c.values := by
  refine ⟨⟨t.columns.map fun c => .ofValues c.name c.values, t.rowCount⟩, ?_, ?_, rfl, ?_, ?_⟩
  · rw [readTable, Text.decode_toUTF8, Text.text?_map_some]
    rw [Option.bind_eq_bind, Option.bind_some, parse?_toText ht hplain hback]
    exact toTable_rows ht hplain hcolumns hrows
  · rw [Table.names, List.map_map]
    rfl
  · rw [List.map_map]
    rfl
  · intro c hc
    obtain ⟨source, -, rfl⟩ := List.mem_map.mp hc
    rfl

/-- Names and texts that need escapes, and numbers of each written form. -/
def measurements : Table :=
  ⟨[⟨"the \"site\"", .text, [.text "C:\\é\n\x01", .missing]⟩,
    ⟨"", .number, [.number (-3.0), .number 0.5]⟩, ⟨"done", .mixed, [.boolean true, .number 1e20]⟩], 2⟩

theorem readTable_measurements :
    (measurements.Valid ∧ measurements.columns ≠ [] ∧ 0 < measurements.rowCount) ∧
    (∀ c ∈ measurements.columns, ∀ v ∈ c.values, Plain v) ∧
    (∀ c ∈ measurements.columns, ∀ v ∈ c.values, ∀ x ∈ v.number?, ¬IsWhole x.toFloat → ReadsBack x.toFloat) ∧
    ∃ t, readTable (Text.decode (toText (ofTable measurements)).toUTF8) = .ok t ∧
      t.names = ["the \"site\"", "", "done"] ∧ t.rowCount = 2 ∧
      t.columns.map (·.values) = measurements.columns.map (·.values) := by
  have hvalid : measurements.Valid := by decide
  have hplain : ∀ c ∈ measurements.columns, ∀ v ∈ c.values, Plain v := by decide +kernel
  have hhalf : ReadsBack 0.5 := by
    have htext : Number.Layout.interchange.text 0.5 = ['0', '.', '5'] := by decide +kernel
    have hread : readMagnitude? ['0', '.', '5'] = some (0.5, []) := by decide +kernel
    rw [ReadsBack, htext, readNumber?_of_ne (by decide), hread]
    rfl
  have hlarge : ReadsBack 1e20 := by
    have htext : Number.Layout.interchange.text 1e20 = ['1', 'e', '+', '2', '0'] := by decide +kernel
    have hread : readMagnitude? ['1', 'e', '+', '2', '0'] = some (1e20, []) := by decide +kernel
    rw [ReadsBack, htext, readNumber?_of_ne (by decide), hread]
    rfl
  have hback : ∀ c ∈ measurements.columns, ∀ v ∈ c.values, ∀ x ∈ v.number?,
      ¬IsWhole x.toFloat → ReadsBack x.toFloat := by
    have hwhole : IsWhole (-3.0) := by
      constructor <;> decide +kernel
    simp only [measurements, List.forall_mem_cons]
    refine ⟨⟨nofun, nofun, nofun⟩, ⟨?_, ?_, nofun⟩, ⟨nofun, ?_, nofun⟩, nofun⟩
    · rintro x ⟨⟩ hnot
      exact absurd hwhole hnot
    · rintro x ⟨⟩ -
      exact hhalf
    · rintro x ⟨⟩ -
      exact hlarge
  obtain ⟨t, hread, hnames, hcount, hvalues, -⟩ :=
    readTable_ofTable hvalid (by decide) (by decide) hplain hback
  exact ⟨⟨hvalid, by decide, by decide⟩, hplain, hback, t, hread, hnames, hcount, hvalues⟩

end Tabular.Document
