import Mathlib.Data.List.TakeWhile
import Tabular.Csv.Table
import Tabular.Proofs.Outcome
import Tabular.Proofs.Table.Grid

/-!
# Reading any document

The first record of a document sets the width of its table. A record is refused if one of its fields is
no text or if it is wider than the first, and the first record that is refused decides how reading fails.
If none is, the table has a column of its own name for each field of the first record and a row for each
record, with missing cells where the record is shorter.
-/
namespace Tabular.Csv

def recordsIn (d : Dialect) (cs : List Symbol) : List (List (List Symbol)) :=
  readRecords d.delimiter (dropMark cs)

def widthOf (records : List (List (List Symbol))) : Nat := (records.head?.map List.length).getD 0

/-- A field of the record is no text. -/
def Damaged (record : List (List Symbol)) : Prop := ∃ field ∈ record, Text.text? field = none

/-- The record can be no row of a table of the given width. -/
def Refused (width : Nat) (record : List (List Symbol)) : Prop :=
  Damaged record ∨ width < record.length

def fieldText (field : List Symbol) : String := String.ofList ((Text.text? field).getD [])

variable {d : Dialect} {cs : List Symbol} {record : List (List Symbol)} {width number : Nat}

theorem readRecord_ne_nil (delimiter : Char) (cs : List Symbol) : (readRecord delimiter cs).1 ≠ [] := by
  rw [readRecord]
  dsimp only
  split
  · exact List.cons_ne_nil _ _
  · exact List.cons_ne_nil _ _

theorem ne_nil_of_mem_readRecords {delimiter : Char} (h : record ∈ readRecords delimiter cs) :
    record ≠ [] := by
  fun_induction readRecords delimiter cs with
  | case1 => cases h
  | case2 cs c rest hrest first ih =>
    rcases List.mem_cons.mp h with h | h
    · rw [h]
      exact readRecord_ne_nil delimiter (c :: rest)
    · exact ih h

theorem texts_of_not_damaged (h : ¬Damaged record) : texts record = .ok (record.map fieldText) := by
  apply mapM_eq_ok
  intro field hfield
  cases htext : Text.text? field with
  | none => exact absurd ⟨field, hfield, htext⟩ h
  | some cs => rw [fieldText, htext, Option.getD_some]

theorem texts_of_damaged (h : Damaged record) : texts record = .error .csv := by
  induction record with
  | nil =>
    obtain ⟨field, hfield, -⟩ := h
    cases hfield
  | cons field record ih =>
    obtain ⟨damaged, hmem, hdamaged⟩ := h
    rw [texts, List.mapM_cons]
    cases htext : Text.text? field with
    | none => rfl
    | some cs =>
      rcases List.mem_cons.mp hmem with hmem | hmem
      · rw [hmem, htext] at hdamaged
        cases hdamaged
      · have hrest : texts record = .error .csv := ih ⟨damaged, hmem, hdamaged⟩
        rw [texts] at hrest
        rw [hrest]
        rfl

def cellsOf (width : Nat) (record : List (List Symbol)) : List Value :=
  Table.resized ((record.map fieldText).map Value.infer) width

theorem readRow_of_not_refused (h : ¬Refused width record) :
    readRow width number record = .ok (cellsOf width record) := by
  obtain ⟨hdamage, hwide⟩ := not_or.mp h
  rw [readRow, texts_of_not_damaged hdamage]
  simp only [bind, Except.bind, List.length_map, if_neg hwide, pure, Except.pure]
  rfl

theorem readRow_of_damaged (h : Damaged record) : readRow width number record = .error .csv := by
  rw [readRow, texts_of_damaged h]
  rfl

theorem readRow_of_wide (hdamage : ¬Damaged record) (hwide : width < record.length) :
    readRow width number record = .error (.codec (.tooManyFields number record.length width)) := by
  rw [readRow, texts_of_not_damaged hdamage]
  simp only [bind, Except.bind, List.length_map, if_pos hwide]
  rfl

theorem mem_trimmed {c : Char} {cs : List Char} (hc : c ∈ cs) (h : Text.isBlank c = false) :
    c ∈ Text.trimmed cs := by
  have hkept {l : List Char} (hl : c ∈ l) : c ∈ l.dropWhile Text.isBlank := by
    rw [← List.takeWhile_append_dropWhile (p := Text.isBlank) (l := l), List.mem_append] at hl
    rcases hl with hl | hl
    · rw [List.mem_takeWhile_imp hl] at h
      cases h
    · exact hl
  exact List.mem_reverse.mpr (hkept (List.mem_reverse.mpr (hkept hc)))

/-- A text is blank exactly if all of its characters are. -/
theorem trim_eq_empty_iff {s : String} : Text.trim s = "" ↔ ∀ c ∈ s.toList, Text.isBlank c = true := by
  rw [← String.toList_eq_nil_iff, Text.trim, String.toList_ofList]
  constructor
  · intro h c hc
    by_contra hblank
    have hmem := mem_trimmed hc (Bool.eq_false_iff.mpr hblank)
    rw [h] at hmem
    cases hmem
  · intro h
    rw [Text.trimmed, Text.trimStart, List.dropWhile_eq_nil_iff.mpr h]
    rfl

theorem trim_trim_ne_empty {s : String} (h : Text.trim s ≠ "") : Text.trim (Text.trim s) ≠ "" := by
  intro hblank
  apply h
  rw [trim_eq_empty_iff] at hblank ⊢
  intro c hc
  by_contra hnot
  have hmem := mem_trimmed hc (Bool.eq_false_iff.mpr hnot)
  exact hnot (hblank c (by rwa [Text.trim, String.toList_ofList]))

/-- A name that is not blank is not blank with a number behind it either. -/
theorem trim_freshName_ne_empty {base : String} (h : Text.trim base ≠ "") (taken : List String) :
    Text.trim (freshName base taken) ≠ "" := by
  rcases freshName_eq_or_suffixed base taken with hname | ⟨n, hname⟩
  · rwa [hname]
  · rw [hname]
    intro hblank
    apply h
    rw [trim_eq_empty_iff] at hblank ⊢
    intro c hc
    apply hblank c
    simp [suffixed, hc]

theorem trim_positionName_ne_empty (index : Nat) : Text.trim (positionName index) ≠ "" := by
  intro hblank
  have hfirst := trim_eq_empty_iff.mp hblank 'c' (by simp [positionName])
  cases hfirst

theorem positionName_injective : Function.Injective positionName := by
  intro i j h
  have htext := congrArg String.toList h
  simp only [positionName, String.toList_append, List.append_cancel_left_eq] at htext
  exact Nat.succ_injective (natText_injective (String.toList_injective htext))

def headerBase (index : Nat) (field : String) : String :=
  if Text.trim field = "" then positionName index else Text.trim field

theorem trim_headerBase_ne_empty (index : Nat) (field : String) :
    Text.trim (headerBase index field) ≠ "" := by
  rw [headerBase]
  split
  next => exact trim_positionName_ne_empty index
  next h => exact trim_trim_ne_empty h

theorem getElem?_headerNames (fields : List String) (j : Nat) : (headerNames fields)[j]? =
    fields[j]?.map fun field => freshName (headerBase j field) ((headerNames fields).take j) := by
  have hnames : headerNames fields = freshNames (fields.zipIdx.map fun p => headerBase p.2 p.1) := rfl
  rw [hnames, inTurn_freshNames _ j, List.getElem?_map, List.getElem?_zipIdx, Option.map_map, Option.map_map,
    Nat.zero_add]
  rfl

/-- The names of the columns of a table whose first record is given. -/
def namesOf (d : Dialect) (first : List (List Symbol)) : List String :=
  if d.hasHeader then headerNames (first.map fieldText)
  else (List.range first.length).map positionName

theorem length_namesOf (d : Dialect) (first : List (List Symbol)) :
    (namesOf d first).length = first.length := by
  rw [namesOf]
  split
  · rw [headerNames, length_freshNames, List.length_map, List.length_zipIdx, List.length_map]
  · rw [List.length_map, List.length_range]

theorem nodup_namesOf (d : Dialect) (first : List (List Symbol)) : (namesOf d first).Nodup := by
  rw [namesOf]
  split
  · exact nodup_freshNames _
  · exact List.nodup_range.map positionName_injective

theorem trim_ne_empty_of_mem_namesOf {first : List (List Symbol)} {name : String}
    (h : name ∈ namesOf d first) : Text.trim name ≠ "" := by
  rw [namesOf] at h
  split at h
  · obtain ⟨j, hj⟩ := List.mem_iff_getElem?.mp h
    rw [getElem?_headerNames] at hj
    obtain ⟨field, -, rfl⟩ := Option.map_eq_some_iff.mp hj
    exact trim_freshName_ne_empty (trim_headerBase_ne_empty j field) _
  · obtain ⟨i, -, rfl⟩ := List.mem_map.mp h
    exact trim_positionName_ne_empty i

def rowRecords (d : Dialect) (records : List (List (List Symbol))) : List (List (List Symbol)) :=
  if d.hasHeader then records.tail else records

/-- The table shows the records: it has a column of its own name for each field of the first, named by
the header where there is one, and a row for each of the others. Columns are typed by their values. -/
structure Shows (d : Dialect) (records : List (List (List Symbol))) (t : Table) : Prop where
  valid : t.Valid
  columnCount : t.columnCount = widthOf records
  names : ∀ name ∈ t.names, Text.trim name ≠ ""
  header : d.hasHeader = true → ∀ first ∈ records.head?, ∀ (j : Nat) field, first[j]? = some field →
    Text.trim (fieldText field) ≠ "" → Text.trim (fieldText field) ∉ t.names.take j →
      t.names[j]? = some (Text.trim (fieldText field))
  types : ∀ c ∈ t.columns, c.type = Column.inferType c.values
  rowCount : t.rowCount = (rowRecords d records).length
  cells : ∀ (i : Nat) record, (rowRecords d records)[i]? = some record → ∀ j < widthOf records,
    t.cell? i j = some ((record[j]?.map fun field => Value.infer (fieldText field)).getD .missing)

theorem read_nil (h : recordsIn d cs = []) : read d cs = .ok .empty := by
  rw [recordsIn] at h
  rw [read, h]

/-- Reading a document whose first record is not damaged. -/
theorem read_cons {first : List (List Symbol)} {rest : List (List (List Symbol))}
    (h : recordsIn d cs = first :: rest) (hfirst : ¬Damaged first) :
    read d cs = (rest.zipIdx.mapM fun (record, i) => readRow first.length (i + 2) record) >>= fun rows =>
      Table.ofRows (namesOf d first)
        ((if d.hasHeader then [] else [cellsOf first.length first]) ++ rows) := by
  have hcells : (first.map fieldText).map Value.infer = cellsOf first.length first := by
    have hlength := Table.resized_length ((first.map fieldText).map Value.infer)
    rw [List.length_map, List.length_map] at hlength
    exact hlength.symm
  rw [recordsIn] at h
  rw [read, h]
  dsimp only
  rw [texts_of_not_damaged hfirst]
  simp only [bind, Except.bind, List.length_map, hcells]
  rfl

/-- The cell of a record is what its field is typed as, or missing behind its end. -/
theorem getD_cellsOf (record : List (List Symbol)) {j : Nat} (hj : j < width) :
    (cellsOf width record).getD j .missing =
      (record[j]?.map fun field => Value.infer (fieldText field)).getD .missing := by
  rw [cellsOf, Table.getD_resized _ hj, List.getD_eq_getElem?_getD, List.getElem?_map, List.getElem?_map]
  cases record[j]? <;> rfl

theorem map_cellsOf_rowRecords (d : Dialect) (first : List (List Symbol))
    (rest : List (List (List Symbol))) :
    (if d.hasHeader then [] else [cellsOf width first]) ++ rest.map (cellsOf width) =
      (rowRecords d (first :: rest)).map (cellsOf width) := by
  rw [rowRecords]
  split <;> rfl

theorem mapM_readRow_of_not_refused {records : List (List (List Symbol))}
    (h : ∀ record ∈ records, ¬Refused width record) :
    (records.zipIdx.mapM fun (record, i) => readRow width (i + 2) record) =
      .ok (records.map (cellsOf width)) := by
  have hread : ∀ p ∈ records.zipIdx, readRow width (p.2 + 2) p.1 = .ok (cellsOf width p.1) :=
    fun p hp => readRow_of_not_refused (h p.1 (List.fst_mem_of_mem_zipIdx hp))
  refine (mapM_eq_ok hread).trans ?_
  conv_rhs => rw [← List.zipIdx_map_fst 0 records, List.map_map]
  rfl

def gridOf (d : Dialect) (first : List (List Symbol)) (rest : List (List (List Symbol))) : Table :=
  Table.ofGrid (namesOf d first) ((rowRecords d (first :: rest)).map (cellsOf first.length))

section Grid

variable {first : List (List Symbol)} {rest : List (List (List Symbol))} (hne : first ≠ [])

include hne

theorem namesOf_ne_nil : namesOf d first ≠ [] := by
  intro hnil
  have hlength := length_namesOf d first
  rw [hnil] at hlength
  exact hne (List.length_eq_zero_iff.mp hlength.symm)

theorem ofRows_eq_gridOf :
    Table.ofRows (namesOf d first) ((rowRecords d (first :: rest)).map (cellsOf first.length)) =
      .ok (gridOf d first rest) := by
  refine Table.ofRows_eq_ok (nodup_namesOf d first) ?_ fun hnil => absurd hnil (namesOf_ne_nil hne)
  intro row hrow
  obtain ⟨record, -, rfl⟩ := List.mem_map.mp hrow
  rw [length_namesOf]
  exact Table.length_resized _ _

theorem shows_gridOf : Shows d (first :: rest) (gridOf d first rest) where
  valid := Table.ofGrid_valid (nodup_namesOf d first) fun hnil => absurd hnil (namesOf_ne_nil hne)
  columnCount := by
    rw [gridOf, Table.columnCount_ofGrid, length_namesOf]
    rfl
  names name hname := by
    rw [gridOf, Table.names_ofGrid] at hname
    exact trim_ne_empty_of_mem_namesOf hname
  header hheader first' hfirst' j field hfield hblank hfree := by
    cases hfirst'
    rw [gridOf, Table.names_ofGrid, namesOf, if_pos hheader] at hfree ⊢
    rw [getElem?_headerNames, List.getElem?_map, hfield]
    simp only [Option.map_some, headerBase, if_neg hblank, freshName_of_not_mem hfree]
  types c hc := Table.type_ofGrid hc
  rowCount := List.length_map ..
  cells i record hrecord j hj := by
    have hrow : ((rowRecords d (first :: rest)).map (cellsOf first.length))[i]? =
        some (cellsOf first.length record) := by
      rw [List.getElem?_map, hrecord, Option.map_some]
    have hj : j < first.length := hj
    rw [gridOf, Table.cell?_ofGrid hrow (by rwa [length_namesOf]), getD_cellsOf record hj]

end Grid

theorem read_of_not_refused
    (h : ∀ record ∈ recordsIn d cs, ¬Refused (widthOf (recordsIn d cs)) record) :
    ∃ t, read d cs = .ok t ∧ Shows d (recordsIn d cs) t := by
  cases hrecords : recordsIn d cs with
  | nil =>
    refine ⟨.empty, read_nil hrecords, by decide, rfl, nofun, nofun, nofun, ?_, ?_⟩
    · simp [rowRecords, Table.empty]
    · intro i record hrecord
      simp [rowRecords] at hrecord
  | cons first rest =>
    have hwidth : widthOf (first :: rest) = first.length := rfl
    rw [hrecords, hwidth] at h
    obtain ⟨hfirst, hrest⟩ := List.forall_mem_cons.mp h
    have hne : first ≠ [] := ne_nil_of_mem_readRecords (hrecords ▸ List.mem_cons_self)
    refine ⟨gridOf d first rest, ?_, shows_gridOf hne⟩
    rw [read_cons hrecords fun hdamage => hfirst (.inl hdamage), mapM_readRow_of_not_refused hrest]
    change Table.ofRows _ (_ ++ _) = _
    rw [map_cellsOf_rowRecords, ofRows_eq_gridOf hne]

/-- The first record that is refused decides how reading fails. -/
theorem read_of_refused {front back : List (List (List Symbol))}
    (hrecords : recordsIn d cs = front ++ record :: back)
    (hfront : ∀ r ∈ front, ¬Refused (widthOf (recordsIn d cs)) r)
    (h : Refused (widthOf (recordsIn d cs)) record) :
    (Damaged record → read d cs = .error .csv) ∧
    (¬Damaged record → read d cs = .error (.codec
      (.tooManyFields (front.length + 1) record.length (widthOf (recordsIn d cs))))) := by
  cases front with
  | nil =>
    have hwidth : widthOf (recordsIn d cs) = record.length := by
      rw [hrecords]
      rfl
    rw [hwidth] at h ⊢
    -- no record is wider than itself
    have hdamaged : Damaged record := h.resolve_right (Nat.lt_irrefl _)
    refine ⟨fun _ => ?_, absurd hdamaged⟩
    rw [recordsIn] at hrecords
    rw [read, hrecords]
    dsimp only [List.nil_append]
    rw [texts_of_damaged hdamaged]
    rfl
  | cons first front =>
    have hwidth : widthOf (recordsIn d cs) = first.length := by
      rw [hrecords]
      rfl
    rw [hwidth] at h hfront ⊢
    obtain ⟨hfirst, hfront⟩ := List.forall_mem_cons.mp hfront
    rw [List.cons_append] at hrecords
    have hfail {e : Error} (he : readRow first.length (front.length + 2) record = .error e) :
        read d cs = .error e := by
      rw [read_cons hrecords fun hdamage => hfirst (.inl hdamage)]
      have hrows : ((front ++ record :: back).zipIdx.mapM fun (r, i) => readRow first.length (i + 2) r) =
          .error e := by
        refine mapM_eq_error_iff.mpr ⟨front.zipIdx, (record, front.length), back.zipIdx (front.length + 1),
          ?_, ?_, he⟩
        · rw [List.zipIdx_append, List.zipIdx_cons, Nat.zero_add]
        · intro p hp
          exact ⟨_, readRow_of_not_refused (hfront p.1 (List.fst_mem_of_mem_zipIdx hp))⟩
      rw [hrows]
      rfl
    constructor
    · intro hdamaged
      exact hfail (readRow_of_damaged hdamaged)
    · intro hdamaged
      exact hfail (readRow_of_wide hdamaged (h.resolve_left hdamaged))

theorem exists_first_refused {records : List (List (List Symbol))}
    (h : ∃ record ∈ records, Refused width record) :
    ∃ front record back, records = front ++ record :: back ∧
      (∀ r ∈ front, ¬Refused width r) ∧ Refused width record := by
  classical
  obtain ⟨record, hmem, hrecord⟩ := h
  have hsome : (records.find? fun r => decide (Refused width r)).isSome :=
    List.find?_isSome.mpr ⟨record, hmem, decide_eq_true hrecord⟩
  obtain ⟨first, hfirst⟩ := Option.isSome_iff_exists.mp hsome
  obtain ⟨hrefused, front, back, hrecords, hfront⟩ := List.find?_eq_some_iff_append.mp hfirst
  refine ⟨front, first, back, hrecords, ?_, of_decide_eq_true hrefused⟩
  intro r hr
  simpa using hfront r hr

/-- Reading fails exactly if some record is refused, in the way that the first such record decides, and
never for the shape of the table. What is read otherwise shows the records. -/
theorem read_total (d : Dialect) (cs : List Symbol) :
    ((∃ e, read d cs = .error e) ↔
      ∃ record ∈ recordsIn d cs, Refused (widthOf (recordsIn d cs)) record) ∧
    (∀ front record back, recordsIn d cs = front ++ record :: back →
      (∀ r ∈ front, ¬Refused (widthOf (recordsIn d cs)) r) →
      (Damaged record → read d cs = .error .csv) ∧
      (¬Damaged record → widthOf (recordsIn d cs) < record.length →
        read d cs = .error (.codec
          (.tooManyFields (front.length + 1) record.length (widthOf (recordsIn d cs)))))) ∧
    (∀ fault, read d cs ≠ .error (.schema fault)) ∧
    ∀ t, read d cs = .ok t → Shows d (recordsIn d cs) t := by
  have hfirst : ∀ front record back, recordsIn d cs = front ++ record :: back →
      (∀ r ∈ front, ¬Refused (widthOf (recordsIn d cs)) r) →
      (Damaged record → read d cs = .error .csv) ∧
      (¬Damaged record → widthOf (recordsIn d cs) < record.length →
        read d cs = .error (.codec
          (.tooManyFields (front.length + 1) record.length (widthOf (recordsIn d cs))))) := by
    intro front record back hrecords hfront
    constructor
    · intro hdamaged
      exact (read_of_refused hrecords hfront (.inl hdamaged)).1 hdamaged
    · intro hdamaged hwide
      exact (read_of_refused hrecords hfront (.inr hwide)).2 hdamaged
  by_cases hrefused : ∃ record ∈ recordsIn d cs, Refused (widthOf (recordsIn d cs)) record
  · obtain ⟨front, record, back, hrecords, hfront, hrecord⟩ := exists_first_refused hrefused
    obtain ⟨e, he, hshape⟩ : ∃ e, read d cs = .error e ∧ ∀ fault, e ≠ .schema fault := by
      obtain ⟨hdamaged, hwide⟩ := read_of_refused hrecords hfront hrecord
      by_cases h : Damaged record
      · exact ⟨_, hdamaged h, nofun⟩
      · exact ⟨_, hwide h, nofun⟩
    rw [he] at hfirst ⊢
    refine ⟨iff_of_true ⟨e, rfl⟩ hrefused, hfirst, ?_, nofun⟩
    intro fault h
    exact hshape fault (Except.error.inj h)
  · obtain ⟨t, ht, hshows⟩ := read_of_not_refused fun record hmem hrecord => hrefused ⟨record, hmem, hrecord⟩
    rw [ht] at hfirst ⊢
    refine ⟨iff_of_false nofun hrefused, hfirst, nofun, ?_⟩
    intro u h
    cases h
    exact hshows

/-- A header with a blank, a repeated name and one that looks repeated, and rows of other widths. -/
def ragged : List Symbol := "a,,a,a_2 \n1\n,\"x\"\n".toList.map some

theorem read_total_ragged : ∃ t, read .standard ragged = .ok t ∧
    t.names = ["a", "col_2", "a_2", "a_2_2"] ∧ Shows .standard (recordsIn .standard ragged) t := by
  have hread : (read .standard ragged).map Table.names = .ok ["a", "col_2", "a_2", "a_2_2"] := by
    decide +kernel
  obtain ⟨t, ht, hnames⟩ := exists_of_map_eq_ok hread
  obtain ⟨-, -, -, hshows⟩ := read_total .standard ragged
  exact ⟨t, ht, hnames, hshows t ht⟩

end Tabular.Csv
