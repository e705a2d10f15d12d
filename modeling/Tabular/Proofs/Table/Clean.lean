import Tabular.Proofs.Table.Columns
import Tabular.Proofs.Table.Rows
import Tabular.Table.Clean

/-!
# Filling and dropping missing cells

A fill is read by the type of each column. Only a column of mixed values reads a text of blanks as
missing, and so a fill that is not blank leaves no gap in the columns it is meant for, of which then no
row is dropped.
-/
namespace Tabular

theorem Value.infer_eq_missing_iff {s : String} : infer s = .missing ↔ Text.trim s = "" := by
  constructor
  · intro h
    unfold infer at h
    dsimp only at h
    repeat' split at h
    next hblank => exact hblank
    all_goals cases h
  · intro h
    exact if_pos h

theorem Value.isMissing_eq_false_iff {v : Value} : v.isMissing = false ↔ v ≠ .missing :=
  Bool.eq_false_iff.trans (not_congr isMissing_iff)

theorem ColumnType.read_eq_missing_iff {type : ColumnType} {s : String} (hs : s ≠ "") :
    type.read s = .missing ↔ type = .mixed ∧ Text.trim s = "" := by
  unfold read
  rw [if_neg hs]
  cases type with
  | mixed => exact Value.infer_eq_missing_iff.trans (and_iff_right rfl).symm
  | text => exact iff_of_false nofun nofun
  | number =>
    dsimp only
    split <;> exact iff_of_false nofun nofun
  | boolean =>
    dsimp only
    split <;> exact iff_of_false nofun nofun

namespace Table

variable {t u : Table} {fill : String} {names : List String}

theorem requireAll_cons {name : String} : t.requireAll (name :: names) = .ok () ↔
    name ∈ t.names ∧ t.requireAll names = .ok () := by
  rw [requireAll, List.forM_eq_forM, List.forM_cons, bind_eq_ok]
  constructor
  · rintro ⟨_, hname, hrest⟩
    refine ⟨?_, hrest⟩
    cases hc : t.require name with
    | error e =>
      rw [hc] at hname
      cases hname
    | ok c =>
      obtain ⟨hmem, rfl⟩ := of_column?_eq_some (require_eq_ok.mp hc)
      exact List.mem_map_of_mem hmem
  · rintro ⟨hname, hrest⟩
    obtain ⟨c, hc⟩ := exists_column?_of_mem_names hname
    refine ⟨(), ?_, hrest⟩
    rw [require_eq_ok.mpr hc]
    rfl

theorem requireAll_eq_ok_iff : t.requireAll names = .ok () ↔ ∀ name ∈ names, name ∈ t.names := by
  induction names with
  | nil => exact iff_of_true rfl nofun
  | cons name rest ih =>
    rw [requireAll_cons, List.forall_mem_cons]
    exact and_congr_right fun _ => ih

/-- The column with its cells changed, if it is meant. -/
def changedColumn (names : List String) (change : Column → Value → Value) (c : Column) : Column :=
  if isTarget names c then .ofValues c.name (c.values.map (change c)) else c

section
variable {change : Column → Value → Value} {c : Column}

theorem name_changedColumn : (changedColumn names change c).name = c.name := by
  rw [changedColumn]
  split <;> rfl

theorem values_changedColumn : (changedColumn names change c).values =
    if isTarget names c then c.values.map (change c) else c.values := by
  rw [changedColumn]
  split <;> rfl

theorem isTarget_changedColumn : isTarget names (changedColumn names change c) = isTarget names c := by
  rw [isTarget, name_changedColumn]
  rfl

theorem length_values_changedColumn :
    (changedColumn names change c).values.length = c.values.length := by
  rw [values_changedColumn]
  split
  · exact List.length_map ..
  · rfl

theorem Valid.mapCells_eq_ok (h : t.Valid) (hthere : t.requireAll names = .ok ()) :
    t.mapCells names change = .ok ⟨t.columns.map (changedColumn names change), t.rowCount⟩ := by
  rw [mapCells, hthere]
  refine ofColumns_eq_ok (fun c hc => ?_) ?_ fun hnil => h.noColumns (List.map_eq_nil_iff.mp hnil)
  · obtain ⟨source, hsource, rfl⟩ := List.mem_map.mp hc
    exact length_values_changedColumn.trans (h.lengths source hsource)
  · rw [List.map_map]
    exact (List.map_congr_left fun c _ => name_changedColumn).symm ▸ h.names

end

/-- No column that is meant has a missing cell. -/
def Gapless (t : Table) (names : List String) : Prop :=
  ∀ c ∈ t.columns, isTarget names c → ∀ v ∈ c.values, v ≠ .missing

theorem gapless_map_changedColumn {change : Column → Value → Value} {n : Nat} :
    Gapless ⟨t.columns.map (changedColumn names change), n⟩ names ↔
      ∀ c ∈ t.columns, isTarget names c → ∀ v ∈ c.values, change c v ≠ .missing := by
  rw [Gapless, List.forall_mem_map]
  refine forall₂_congr fun c _ => ?_
  rw [isTarget_changedColumn]
  refine forall_congr' fun htarget => ?_
  rw [values_changedColumn, if_pos htarget, List.forall_mem_map]

/-- No row is dropped exactly if there are no gaps. -/
theorem dropMissing_eq_self_iff (hlengths : ∀ c ∈ t.columns, c.values.length = t.rowCount)
    (hthere : t.requireAll names = .ok ()) : t.dropMissing names = .ok t ↔ t.Gapless names := by
  let kept (i : Nat) : Bool := (t.columns.filter (isTarget names)).all fun c => !(c.value i).isMissing
  have hdrop : t.dropMissing names = .ok (t.takeRows ((List.range t.rowCount).filter kept)) := by
    rw [dropMissing, hthere]
    rfl
  have hkept : (∀ i ∈ List.range t.rowCount, kept i) ↔ t.Gapless names := by
    simp only [kept, List.all_eq_true, List.mem_filter, List.mem_range, Bool.not_eq_true',
      Value.isMissing_eq_false_iff]
    constructor
    · intro h c hc htarget v hv
      obtain ⟨i, hi, rfl⟩ := List.mem_iff_getElem.mp hv
      have hvalue := h i (hlengths c hc ▸ hi) c ⟨hc, htarget⟩
      rwa [Column.value_of_lt hi] at hvalue
    · intro h i hi c hc
      have hi : i < c.values.length := (hlengths c hc.1).symm ▸ hi
      rw [Column.value_of_lt hi]
      exact h c hc.1 hc.2 _ (List.getElem_mem hi)
  rw [hdrop, ← hkept, ← List.filter_eq_self]
  constructor
  · intro h
    have hcount : ((List.range t.rowCount).filter kept).length = t.rowCount :=
      congrArg Table.rowCount (Except.ok.inj h)
    exact List.filter_sublist.eq_of_length (hcount.trans List.length_range.symm)
  · intro h
    rw [h, takeRows_range hlengths]

/-- The cell with a gap filled by a text, read by the type of the column. -/
def filledCell (fill : String) (c : Column) (v : Value) : Value :=
  if v.isMissing then c.type.read fill else v

theorem filledCell_of_ne {c : Column} {v : Value} (hv : v ≠ .missing) : filledCell fill c v = v := by
  rw [filledCell, Value.isMissing_eq_false_iff.mpr hv]
  rfl

/-- Only a text of blanks in a column of mixed values leaves a gap. -/
theorem filledCell_eq_missing_iff (hfill : fill ≠ "") {c : Column} {v : Value} :
    filledCell fill c v = .missing ↔ v = .missing ∧ c.type = .mixed ∧ Text.trim fill = "" := by
  by_cases hv : v = .missing
  · rw [hv, and_iff_right rfl]
    exact ColumnType.read_eq_missing_iff hfill
  · rw [filledCell_of_ne hv]
    exact iff_of_false hv fun h => hv h.1

theorem Valid.fillMissing_eq_ok_iff (h : t.Valid) : t.fillMissing fill names = .ok u ↔
    fill ≠ "" ∧ t.requireAll names = .ok () ∧
      u = ⟨t.columns.map (changedColumn names (filledCell fill)), t.rowCount⟩ := by
  rw [fillMissing]
  split
  next hempty => exact iff_of_false nofun fun hok => hok.1 hempty
  next hfill =>
    constructor
    · intro hok
      obtain ⟨_, hthere, -⟩ := bind_eq_ok.mp hok
      exact ⟨hfill, hthere, Except.ok.inj (hok.symm.trans (h.mapCells_eq_ok hthere))⟩
    · rintro ⟨-, hthere, rfl⟩
      exact h.mapCells_eq_ok hthere

/-- The tables differ in missing cells of the columns that are meant, and in the types of these
columns, at most. -/
structure KeepsPresent (t : Table) (names : List String) (u : Table) : Prop where
  rowCount : u.rowCount = t.rowCount
  header : u.names = t.names
  others : ∀ (j : Nat) c, t.columns[j]? = some c → isTarget names c = false → u.columns[j]? = some c
  cells : ∀ i j v, t.cell? i j = some v → v ≠ .missing → u.cell? i j = some v

theorem keepsPresent_filled (t : Table) (fill : String) (names : List String) :
    t.KeepsPresent names ⟨t.columns.map (changedColumn names (filledCell fill)), t.rowCount⟩ := by
  constructor
  case rowCount => rfl
  case header =>
    rw [Table.names, List.map_map]
    exact List.map_congr_left fun c _ => name_changedColumn
  case others =>
    intro j c hc hother
    rw [List.getElem?_map, hc, Option.map_some, changedColumn, hother]
    rfl
  case cells =>
    intro i j v hcell hv
    obtain ⟨c, hc, hi⟩ := Option.bind_eq_some_iff.mp hcell
    rw [cell?, List.getElem?_map, hc, Option.map_some, Option.bind_some, values_changedColumn]
    split
    · rw [List.getElem?_map, hi, Option.map_some, filledCell_of_ne hv]
    · exact hi

/-- A fill keeps all cells that are there and all columns that it is not meant for. It leaves no gap,
so that no row is dropped for one, unless it is a text of blanks and some column that it is meant for
is of mixed values and has a gap. -/
theorem Valid.fillMissing_gapless (h : t.Valid) (hok : t.fillMissing fill names = .ok u) :
    t.KeepsPresent names u ∧
    (u.Gapless names ↔ Text.trim fill ≠ "" ∨
      ∀ c ∈ t.columns, isTarget names c → c.type = .mixed → ∀ v ∈ c.values, v ≠ .missing) ∧
    (u.dropMissing names = .ok u ↔ u.Gapless names) := by
  obtain ⟨hfill, hthere, rfl⟩ := h.fillMissing_eq_ok_iff.mp hok
  have hkeeps := t.keepsPresent_filled fill names
  refine ⟨hkeeps, ?_, dropMissing_eq_self_iff (fun c hc => ?_) ?_⟩
  · rw [gapless_map_changedColumn]
    simp only [ne_eq, filledCell_eq_missing_iff hfill]
    by_cases hblank : Text.trim fill = ""
    · simp only [hblank, and_true, not_true_eq_false, false_or]
      exact forall₃_congr fun c _ _ => ⟨fun hgaps hmixed v hv hmissing => hgaps v hv ⟨hmissing, hmixed⟩,
        fun hgaps v hv hboth => hgaps hboth.2 v hv hboth.1⟩
    · simp [hblank]
  · obtain ⟨source, hsource, rfl⟩ := List.mem_map.mp hc
    exact length_values_changedColumn.trans (h.lengths source hsource)
  · rw [requireAll_eq_ok_iff, hkeeps.header]
    exact requireAll_eq_ok_iff.mp hthere

/-- Visits, with gaps in columns of three types. -/
def visits : Table :=
  ⟨[⟨"day", .text, [.text "Mon", .missing, .text "Wed"]⟩,
    ⟨"count", .number, [.number 3.0, .error .divByZero, .missing]⟩,
    ⟨"note", .mixed, [.missing, .text "rain", .boolean true]⟩], 3⟩

/-- Two of the columns filled; the gap in the first one stays. -/
def filledVisits : Table :=
  ⟨[⟨"day", .text, [.text "Mon", .missing, .text "Wed"]⟩,
    ⟨"count", .mixed, [.number 3.0, .error .divByZero, .text "no"]⟩,
    ⟨"note", .mixed, [.text "no", .text "rain", .boolean true]⟩], 3⟩

theorem fillMissing_gapless_visits :
    (visits.Valid ∧ visits.fillMissing "no" ["note", "count"] = .ok filledVisits) ∧
    visits.KeepsPresent ["note", "count"] filledVisits ∧ filledVisits.Gapless ["note", "count"] ∧
    filledVisits.dropMissing ["note", "count"] = .ok filledVisits := by
  have hvalid : visits.Valid := by decide
  have hfill : visits.fillMissing "no" ["note", "count"] = .ok filledVisits := by decide +kernel
  obtain ⟨hkeeps, hgapless, hdrop⟩ := hvalid.fillMissing_gapless hfill
  have hfilled := hgapless.mpr (.inl (by decide +kernel))
  exact ⟨⟨hvalid, hfill⟩, hkeeps, hfilled, hdrop.mpr hfilled⟩

/-- A note that is missing, in a column that therefore has no type. -/
def lostNote : Table := ⟨[⟨"note", .mixed, [.missing]⟩], 1⟩

/-- The note is filled with a blank, which is no empty text, and is still missing. -/
theorem fillMissing_blank_gap :
    lostNote.Valid ∧ lostNote.fillMissing " " [] = .ok lostNote ∧ ¬lostNote.Gapless [] ∧
      lostNote.dropMissing [] ≠ .ok lostNote := by
  have hvalid : lostNote.Valid := by decide
  have hfill : lostNote.fillMissing " " [] = .ok lostNote := by decide +kernel
  have hgap : ¬lostNote.Gapless [] := fun h =>
    h _ List.mem_cons_self rfl _ List.mem_cons_self rfl
  exact ⟨hvalid, hfill, hgap, by decide +kernel⟩

end Table

end Tabular
