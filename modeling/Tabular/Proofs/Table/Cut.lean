import Tabular.Proofs.Table.Columns
import Tabular.Proofs.Table.Range
import Tabular.Proofs.Table.Rows
import Tabular.Table.Cut

/-!
# Cutting a table

The part of a table that a range covers has the cells that are read from the range. It is also what
is left when rows are cut off behind and before it, and its columns are selected by their names.
-/
namespace Tabular

theorem filterMap_getElem?_range' {α : Type} (l : List α) (first n : Nat) :
    (List.range' first n).filterMap (l[·]?) = (l.drop first).take n := by
  induction n generalizing first with
  | zero => rfl
  | succ n ih =>
    rw [List.range'_succ, List.filterMap_cons, ih]
    by_cases hfirst : first < l.length
    · rw [List.getElem?_eq_getElem hfirst, List.drop_eq_getElem_cons hfirst, List.take_succ_cons]
    · rw [List.getElem?_eq_none (Nat.le_of_not_lt hfirst),
        List.drop_eq_nil_of_le (Nat.le_of_not_lt hfirst),
        List.drop_eq_nil_of_le (Nat.le_succ_of_le (Nat.le_of_not_lt hfirst))]
      simp

namespace Table

variable {t : Table} {r : RangeAddress}

theorem columnsIn_eq (t : Table) (r : RangeAddress) :
    t.columnsIn r = (t.columnIndices r).filterMap (t.columns[·]?) := by
  rw [columnsIn, List.drop_take, columnIndices, indices, filterMap_getElem?_range']

theorem names_columnsIn (t : Table) (r : RangeAddress) :
    (t.columnsIn r).map (·.name) = (t.columnIndices r).filterMap (t.names[·]?) := by
  rw [columnsIn_eq, List.map_filterMap]
  exact List.filterMap_congr fun j _ => List.getElem?_map.symm

theorem columnsIn_takeRows (t : Table) (r : RangeAddress) (rows : List Nat) :
    (t.takeRows rows).columnsIn r = (t.columnsIn r).map (·.takeRows rows) := by
  rw [columnsIn, columnsIn, List.map_drop, List.map_take, columnCount, columnCount, Table.takeRows,
    List.length_map]

theorem columnsIn_sublist (t : Table) (r : RangeAddress) : (t.columnsIn r).Sublist t.columns :=
  (List.drop_sublist _ _).trans (List.take_sublist _ _)

theorem lt_of_mem_columnIndices (hstart : t.contains r.start) {j : Nat}
    (hj : j ∈ t.columnIndices r) : j < t.columnCount := by
  have hcolumn := (contains_iff.mp hstart).2
  simp only [columnIndices, indices, List.mem_range'_1] at hj
  omega

/-- The cells of a row that a range covers are those of its columns. -/
theorem map_value_columnsIn (hstart : t.contains r.start) (i : Nat) :
    (t.columnsIn r).map (·.value i) = (t.columnIndices r).map fun j => t.value ⟨i, j⟩ := by
  rw [columnsIn_eq, List.map_filterMap, ← List.filterMap_eq_map]
  refine List.filterMap_congr fun j hj => ?_
  have hj : j < t.columns.length := lt_of_mem_columnIndices hstart hj
  rw [List.getElem?_eq_getElem hj, Function.comp_apply, value, cell?, List.getElem?_eq_getElem hj]
  exact congrArg some List.getD_eq_getElem?_getD

/-- To keep the rows up to one and of these the last ones is to take the rows between. -/
theorem tail_head {first last : Nat} (hfirst : first ≤ last) (hlast : last < t.rowCount) :
    (t.head (last + 1)).tail (last - first + 1) = t.takeRows (indices first last) := by
  have hhead : t.head (last + 1) = t.takeRows (List.range (last + 1)) := by
    rw [head, Nat.min_eq_left hlast]
  have hcount : (t.takeRows (List.range (last + 1))).rowCount = last + 1 := List.length_range
  have htail : List.range' (last + 1 - (last - first + 1)) (last - first + 1) = indices first last := by
    rw [indices]
    congr 1 <;> omega
  have hlt : ∀ k ∈ indices first last, k < last + 1 := by
    intro k hk
    rw [indices, List.mem_range'_1] at hk
    omega
  have hpicked : (indices first last).map (rowAt (List.range (last + 1))) = indices first last :=
    (List.map_congr_left fun k hk => rowAt_range (hlt k hk)).trans (List.map_id _)
  rw [hhead, tail, hcount, Nat.min_eq_left (by omega), htail,
    takeRows_takeRows (by rwa [List.length_range]), hpicked]

/-- The columns of a range, as a table with all rows. -/
def spanned (t : Table) (r : RangeAddress) : Table := ⟨t.columnsIn r, t.rowCount⟩

theorem row_spanned (hstart : t.contains r.start) (i : Nat) :
    (t.spanned r).row i = (t.columnIndices r).map fun j => t.value ⟨i, j⟩ :=
  map_value_columnsIn hstart i

theorem columnsIn_ne_nil (hstart : t.contains r.start) (hcovers : r.Covers r.start) :
    t.columnsIn r ≠ [] := by
  intro hnil
  have hindices := (map_value_columnsIn hstart 0).symm
  rw [hnil, List.map_nil, List.map_eq_nil_iff] at hindices
  have hlength := congrArg List.length hindices
  have hcolumn := (contains_iff.mp hstart).2
  have hle := hcovers.2.2
  simp only [columnIndices, indices, List.length_range', List.length_nil] at hlength
  omega

theorem Valid.ofColumns_columnsIn (h : t.Valid) (hstart : t.contains r.start)
    (hcovers : r.Covers r.start) (rows : List Nat) :
    ofColumns ((t.takeRows rows).columnsIn r) = .ok ((t.spanned r).takeRows rows) := by
  rw [columnsIn_takeRows]
  refine ofColumns_eq_ok (fun c hc => ?_) ?_ fun hnil => ?_
  · obtain ⟨source, -, rfl⟩ := List.mem_map.mp hc
    exact List.length_map ..
  · rw [List.map_map]
    exact h.names.sublist ((t.columnsIn_sublist r).map _)
  · exact absurd (List.map_eq_nil_iff.mp hnil) (columnsIn_ne_nil hstart hcovers)

/-- The names of the columns of a range select these columns. -/
theorem Valid.select_columnIndices (h : t.Valid) {c : Column} (hc : c ∈ t.columns) (rows : List Nat) :
    (t.takeRows rows).select ((t.columnIndices r).filterMap (t.names[·]?)) =
      ofColumns ((t.takeRows rows).columnsIn r) := by
  have hvalid : (t.takeRows rows).Valid := h.takeRows_of_mem hc rows
  have hsublist := (t.takeRows rows).columnsIn_sublist r
  have hnames : ((t.takeRows rows).columnsIn r).map (·.name) =
      (t.columnIndices r).filterMap (t.names[·]?) := by
    rw [← names_columnsIn, columnsIn_takeRows, List.map_map]
    rfl
  rw [← hnames]
  exact hvalid.select_names (fun _ hc => hsublist.subset hc) (hvalid.names.sublist (hsublist.map _))

/-- A text that is no range in the table covers no part of it. Otherwise the part has the rows that
are read from the range, and it is what is left of the table when the rows behind the last and before
the first row of the range are cut off and the columns of the range are selected by their names. -/
theorem Valid.slice_agrees (h : t.Valid) (range : String) :
    ((∃ part, t.slice range = .ok part) ↔ ∃ r, t.resolveRange range = .ok r) ∧
    ∀ r, t.resolveRange range = .ok r →
      let first := r.start.row
      let last := min r.stop.row (t.rowCount - 1)
      let names := (indices r.start.column (min r.stop.column (t.columnCount - 1))).filterMap (t.names[·]?)
      ∃ part, t.slice range = .ok part ∧ part.rows = t.rangeRows r ∧
        ((t.head (last + 1)).tail (last - first + 1)).select names = .ok part := by
  have hpart {r : RangeAddress} (hr : t.resolveRange range = .ok r) :
      t.slice range = .ok ((t.spanned r).takeRows (t.rowIndices r)) := by
    obtain ⟨hstart, hcovers⟩ := of_resolveRange_eq_ok hr
    rw [slice, hr]
    exact h.ofColumns_columnsIn hstart hcovers _
  refine ⟨⟨fun ⟨part, hslice⟩ => ?_, fun ⟨r, hr⟩ => ⟨_, hpart hr⟩⟩, fun r hr => ?_⟩
  · obtain ⟨r, hr, -⟩ := bind_eq_ok.mp hslice
    cases hresolve : t.resolveRange range with
    | ok r => exact ⟨r, rfl⟩
    | error fault =>
      rw [hresolve] at hr
      cases hr
  · intro first last names
    obtain ⟨hstart, hcovers⟩ := of_resolveRange_eq_ok hr
    obtain ⟨hrow, hcolumn⟩ := contains_iff.mp hstart
    have hfirst : first ≤ last := Nat.le_min.mpr ⟨hcovers.1.2, Nat.le_sub_one_of_lt hrow⟩
    have hlast : last < t.rowCount := Nat.lt_of_le_of_lt (Nat.min_le_right _ _) (Nat.sub_one_lt_of_lt hrow)
    have hrows : (t.head (last + 1)).tail (last - first + 1) = t.takeRows (t.rowIndices r) :=
      tail_head hfirst hlast
    refine ⟨_, hpart hr, ?_, ?_⟩
    · rw [rows_takeRows, rangeRows]
      exact List.map_congr_left fun i _ => row_spanned hstart i
    · rw [hrows]
      exact (h.select_columnIndices (List.getElem_mem hcolumn) _).trans
        (h.ofColumns_columnsIn hstart hcovers _)

def grades : Table :=
  ⟨[⟨"name", .text, [.text "Ann", .text "Bob", .text "Cid"]⟩,
    ⟨"grade", .number, [.number 3.0, .missing, .number 1.0]⟩,
    ⟨"passed", .boolean, [.boolean true, .error .divByZero, .boolean false]⟩], 3⟩

theorem slice_agrees_grades :
    (grades.Valid ∧ grades.resolveRange "Z9:B2" = .ok ⟨⟨1, 1⟩, ⟨8, 25⟩⟩) ∧
    ∃ part, grades.slice "Z9:B2" = .ok part ∧
      part.rows = [[.missing, .error .divByZero], [.number 1.0, .boolean false]] ∧
      ((grades.head 3).tail 2).select ["grade", "passed"] = .ok part := by
  have hvalid : grades.Valid := by decide
  have hresolve : grades.resolveRange "Z9:B2" = .ok ⟨⟨1, 1⟩, ⟨8, 25⟩⟩ := by decide +kernel
  exact ⟨⟨hvalid, hresolve⟩, (hvalid.slice_agrees "Z9:B2").2 _ hresolve⟩

end Table

end Tabular
