import Tabular.Csv.Table
import Tabular.Proofs.Csv.Record
import Tabular.Proofs.Outcome
import Tabular.Proofs.Table.Grid
import Tabular.Proofs.Text.Encoding

/-!
# Reading written tables

A table that is written with a header is read again as the same table, up to what its cells become
when their texts are typed anew.
-/
namespace Tabular.Csv

theorem map_zipIdx_eq {α : Type} {l : List α} {f : α × Nat → α} (h : ∀ p ∈ l.zipIdx, f p = p.1) :
    l.zipIdx.map f = l := by
  conv_rhs => rw [← List.zipIdx_map_fst 0 l]
  exact List.map_congr_left h

theorem texts_map_some (fields : List String) :
    texts ((fields.map String.toList).map (List.map some)) = .ok fields := by
  rw [texts, List.map_map, List.mapM_map, mapM_eq_ok (g := id) fun field _ => ?_, List.map_id]
  simp

theorem headerNames_of_trimmed {names : List String} (hnodup : names.Nodup)
    (h : ∀ name ∈ names, name ≠ "" ∧ Text.trim name = name) : headerNames names = names := by
  rw [headerNames, map_zipIdx_eq, freshNames_of_nodup hnodup]
  rintro ⟨field, i⟩ hmem
  obtain ⟨hne, htrim⟩ := h field (List.fst_mem_of_mem_zipIdx hmem)
  dsimp only
  rw [htrim, if_neg hne]

theorem readRow_map_some (number : Nat) (fields : List String) :
    readRow fields.length number ((fields.map String.toList).map (List.map some)) =
      .ok (fields.map Value.infer) := by
  have hresized := Table.resized_length (fields.map Value.infer)
  rw [List.length_map] at hresized
  rw [readRow, texts_map_some]
  simp only [bind, Except.bind, Nat.lt_irrefl, if_false, pure, Except.pure, hresized]

theorem dropMark_writeRecord {d : Char} (hd : Separates d) {field : List Char}
    (hfield : field ≠ []) (hmark : field.head? ≠ some '\uFEFF') (fields : List (List Char))
    (rest : List Symbol) :
    dropMark ((writeRecord d (field :: fields)).map some ++ rest) =
      (writeRecord d (field :: fields)).map some ++ rest := by
  obtain ⟨c, more, heq, -, hhead⟩ := writeRecord_eq_cons hd field fields
  rw [heq, List.map_cons, List.cons_append, dropMark]
  rintro cs hcs
  -- the mark could only be the first character of the first name itself
  obtain rfl : c = '\uFEFF' := by simpa using (List.cons.inj hcs).1
  obtain hquote | hfirst := hhead hfield
  · exact absurd hquote (by decide)
  · exact hmark hfirst

def recordsOf (t : Table) : List (List (List Char)) :=
  (t.names :: t.rows.map (List.map Value.toText)).map (List.map String.toList)

theorem ne_nil_of_mem_recordsOf {t : Table} (hcolumns : t.columns ≠ []) {fields : List (List Char)}
    (h : fields ∈ recordsOf t) : fields ≠ [] := by
  obtain ⟨texts, htexts, rfl⟩ := List.mem_map.mp h
  obtain rfl | htexts := List.mem_cons.mp htexts
  · simpa [Table.names] using hcolumns
  · obtain ⟨row, hrow, rfl⟩ := List.mem_map.mp htexts
    obtain ⟨i, -, rfl⟩ := List.mem_map.mp hrow
    simpa [Table.row] using hcolumns

/-- A written table is cut into the records that it was written from. -/
theorem readRecords_write {d : Dialect} (hd : Separates d.delimiter) (hheader : d.hasHeader = true)
    {t : Table} (hcolumns : t.columns ≠ []) (hnames : ∀ name ∈ t.names, name ≠ "")
    (hmark : ∀ name, t.names.head? = some name → name.toList.head? ≠ some '\uFEFF') :
    readRecords d.delimiter (dropMark (Text.decode (write d t).toUTF8)) =
      (recordsOf t).map (List.map (List.map some)) := by
  have hwritten : (write d t).toList = (recordsOf t).flatMap (writeRecord d.delimiter) := by
    simp [write, hheader, hcolumns, recordsOf, List.flatMap_map]
  rw [← readRecords_writeRecord hd fun _ => ne_nil_of_mem_recordsOf hcolumns,
    Text.decode_toUTF8, hwritten]
  obtain ⟨c, columns, hc⟩ := List.exists_cons_of_ne_nil hcolumns
  have hfirst : t.names = c.name :: columns.map (·.name) := by rw [Table.names, hc, List.map_cons]
  rw [recordsOf, hfirst, List.map_cons, List.map_cons, List.flatMap_cons, List.map_append,
    dropMark_writeRecord hd]
  · simpa using hnames c.name (hfirst ▸ List.mem_cons_self)
  · exact hmark c.name (by rw [hfirst, List.head?_cons])

theorem mapM_readRow (width : Nat) (rows : List (List String))
    (h : ∀ row ∈ rows, row.length = width) :
    ((rows.map (List.map String.toList)).map (List.map (List.map some))).zipIdx.mapM
      (fun (record, i) => readRow width (i + 2) record) = .ok (rows.map (List.map Value.infer)) := by
  have hread : ∀ row ∈ rows.zipIdx, readRow width (row.2 + 2)
      ((row.1.map String.toList).map (List.map some)) = .ok (row.1.map Value.infer) := by
    rintro ⟨row, i⟩ hmem
    rw [← h row (List.fst_mem_of_mem_zipIdx hmem)]
    exact readRow_map_some (i + 2) row
  rw [List.map_map, List.zipIdx_map, List.mapM_map]
  refine (mapM_eq_ok hread).trans ?_
  conv_rhs => rw [← List.zipIdx_map_fst 0 rows, List.map_map]
  rfl

/-- A written table is read as the same table with each cell what its text is typed as. -/
theorem read_write_infer {d : Dialect} (hd : Separates d.delimiter) (hheader : d.hasHeader = true)
    {t : Table} (ht : t.Valid) (hcolumns : t.columns ≠ [])
    (hnames : ∀ name ∈ t.names, name ≠ "" ∧ Text.trim name = name)
    (hmark : ∀ name, t.names.head? = some name → name.toList.head? ≠ some '\uFEFF') :
    read d (Text.decode (write d t).toUTF8) = .ok ⟨t.columns.map fun c =>
      .ofValues c.name (c.values.map fun v => .infer v.toText), t.rowCount⟩ := by
  have hrows := mapM_readRow t.names.length (t.rows.map (List.map Value.toText))
    fun row hrow => by
      obtain ⟨cells, hcells, rfl⟩ := List.mem_map.mp hrow
      obtain ⟨i, -, rfl⟩ := List.mem_map.mp hcells
      simp [Table.row]
  rw [read, readRecords_write hd hheader hcolumns (fun name h => (hnames name h).1) hmark,
    recordsOf, List.map_cons, List.map_cons]
  dsimp only
  rw [texts_map_some]
  simp only [bind, Except.bind, hheader, if_true, headerNames_of_trimmed ht.names hnames]
  rw [hrows, List.map_map]
  have hcell : (List.map Value.infer ∘ List.map Value.toText) =
      List.map fun v : Value => Value.infer v.toText := by
    funext row
    rw [Function.comp_apply, List.map_map]
    rfl
  rw [hcell]
  exact ht.ofRows_map hcolumns _

/-- A table is read as it was written: with the same names and rows, each cell what its text is
typed as, and each column of the type of its values. Where every text is typed as the cell that it
was written for, the cells are the same. -/
theorem read_write {d : Dialect} (hquote : d.delimiter ≠ '"') (hlineFeed : d.delimiter ≠ '\n')
    (hcarriageReturn : d.delimiter ≠ '\r') (hheader : d.hasHeader = true)
    {t : Table} (ht : t.Valid) (hcolumns : t.columns ≠ [])
    (hnames : ∀ name ∈ t.names, name ≠ "" ∧ Text.trim name = name)
    (hmark : ∀ name, t.names.head? = some name → name.toList.head? ≠ some '\uFEFF') :
    ∃ t', read d (Text.decode (write d t).toUTF8) = .ok t' ∧
      t'.names = t.names ∧ t'.rowCount = t.rowCount ∧
      (∀ c ∈ t'.columns, c.type = Column.inferType c.values) ∧
      t'.columns.map (·.values) = t.columns.map (·.values.map fun v => .infer v.toText) ∧
      ((∀ c ∈ t.columns, ∀ v ∈ c.values, Value.infer v.toText = v) →
        t'.columns.map (·.values) = t.columns.map (·.values)) := by
  have hcells : (t.columns.map fun c => Column.ofValues c.name
      (c.values.map fun v => .infer v.toText)).map (·.values) =
      t.columns.map (·.values.map fun v => .infer v.toText) := by
    rw [List.map_map]
    rfl
  refine ⟨_, read_write_infer ⟨hquote, hlineFeed, hcarriageReturn⟩ hheader ht hcolumns hnames hmark,
    ?_, rfl, fun c hc => ?_, hcells, fun hsame => ?_⟩
  · rw [Table.names, List.map_map]
    rfl
  · obtain ⟨source, -, rfl⟩ := List.mem_map.mp hc
    rfl
  · rw [hcells]
    refine List.map_congr_left fun c hc => ?_
    rw [List.map_congr_left (hsame c hc), List.map_id']

/-- A column whose name and cells need quotes in different ways. -/
def remarks : Table :=
  ⟨[⟨"re;mark", .mixed,
    [.text "one; \"two\"\nthree ", .missing, .boolean true, .number (-2.5)]⟩], 4⟩

theorem read_write_remarks :
    (remarks.Valid ∧ remarks.columns ≠ [] ∧ Text.trim "re;mark" = "re;mark") ∧
    (∀ c ∈ remarks.columns, ∀ v ∈ c.values, Value.infer v.toText = v) ∧
    write ⟨';', true⟩ remarks =
      "\"re;mark\"\n\"one; \"\"two\"\"\nthree \"\n\"\"\nTRUE\n-2.5\n" ∧
    ∃ t, read ⟨';', true⟩ (Text.decode (write ⟨';', true⟩ remarks).toUTF8) = .ok t ∧
      t.names = ["re;mark"] ∧ t.rowCount = 4 ∧
      t.columns.map (·.values) = remarks.columns.map (·.values) := by
  have hvalid : remarks.Valid := by decide
  have htrim : Text.trim "re;mark" = "re;mark" := by decide
  have hcells : ∀ c ∈ remarks.columns, ∀ v ∈ c.values, Value.infer v.toText = v := by
    decide +kernel
  have hwritten : write ⟨';', true⟩ remarks =
      "\"re;mark\"\n\"one; \"\"two\"\"\nthree \"\n\"\"\nTRUE\n-2.5\n" := by
    decide +kernel
  have hnames : ∀ name ∈ remarks.names, name ≠ "" ∧ Text.trim name = name :=
    fun name hname => by
      obtain rfl := List.mem_singleton.mp hname
      exact ⟨by decide, htrim⟩
  have hmark : ∀ name, remarks.names.head? = some name →
      name.toList.head? ≠ some '\uFEFF' := by
    rintro name hname
    obtain rfl : "re;mark" = name := Option.some.inj hname
    decide
  obtain ⟨t, hread, hsameNames, hcount, -, -, hsame⟩ :=
    read_write (d := ⟨';', true⟩) (by decide) (by decide) (by decide) rfl hvalid (by decide)
      hnames hmark
  exact ⟨⟨hvalid, by decide, htrim⟩, hcells, hwritten, t, hread, hsameNames, hcount, hsame hcells⟩

end Tabular.Csv
