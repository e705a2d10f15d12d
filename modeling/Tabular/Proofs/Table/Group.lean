import Tabular.Proofs.Address
import Tabular.Proofs.Formula.Cells
import Tabular.Proofs.Step
import Tabular.Proofs.Table.Classes
import Tabular.Proofs.Table.Columns

/-!
# Grouping

A grouping by columns that are there succeeds, and its groups are the classes of rows with equal key
cells. Each aggregate of a group is the value of the function of its name in the table of the group's
rows, over the range of the whole column.
-/
namespace Tabular

open Formula

theorem Formula.Function.ofName?_name_aggregate (a : Aggregate) :
    ofName? (aggregate a).name = some (aggregate a) := by
  cases a <;> decide +kernel

namespace Table

variable {t : Table} {groups : List (List Nat)}

/-- The aggregate columns stand behind the columns given, one an aggregation. -/
theorem exists_addAggregates {R : Aggregation → Column → Prop} {aggregations : List Aggregation}
    {sources : List Column} (h : List.Forall₂ R aggregations sources) (groups : List (List Nat))
    (columns : List Column) :
    ∃ added, addAggregates groups columns (aggregations.zip sources) = columns ++ added ∧
      List.Forall₂ (fun a c => ∃ source, R a source ∧
        c.values = aggregateValues groups a.aggregate source) aggregations added := by
  induction h generalizing columns with
  | nil => exact ⟨[], (List.append_nil columns).symm, .nil⟩
  | @cons a source _ _ hsource _ ih =>
    rw [List.zip_cons_cons, addAggregates]
    obtain ⟨added, hadded, hall⟩ := ih _
    rw [hadded, List.append_assoc, List.singleton_append]
    exact ⟨_, rfl, .cons ⟨source, hsource, rfl⟩ hall⟩

/-- The aggregate of some rows of a column is the value of the function of its name over the whole
column in the table of these rows. -/
theorem eval_aggregate_takeRows {a : Aggregate} {i : Nat} {source : Column} {rows : List Nat}
    {target : Option Nat} {corner opposite : String} (hsource : t.columns[i]? = some source)
    (hrows : rows ≠ [])
    (h : RangeAddress.parseCorners corner opposite = .ok ((t.takeRows rows).columnRange i)) :
    eval ⟨t.takeRows rows, target⟩ (.call (Function.aggregate a).name [.range corner opposite]) =
      a.reduce (rows.map source.value) := by
  have hcolumn : (t.takeRows rows).columns[i]? = some (source.takeRows rows) := by
    rw [takeRows, List.getElem?_map, hsource, Option.map_some]
  have hlength : 0 < (t.takeRows rows).rowCount := List.length_pos_iff.mpr hrows
  have hstart : (t.takeRows rows).contains ⟨0, i⟩ :=
    contains_iff.mpr ⟨hlength, (List.getElem?_eq_some_iff.mp hcolumn).1⟩
  rw [eval_call_range rfl (Function.ofName?_name_aggregate a) h hstart,
    rangeValues_columnRange hcolumn (List.length_map ..) hlength]
  rfl

namespace Grouped

variable {columns : List Column}

theorem ne_nil (h : t.Grouped columns groups) {rows : List Nat} (hrows : rows ∈ groups) :
    rows ≠ [] := by
  obtain ⟨firsts, hfirsts, -⟩ := h.firsts
  have hhead : rows.head? ∈ firsts.map some := hfirsts ▸ List.mem_map_of_mem hrows
  rintro rfl
  simp at hhead

theorem length_le (h : t.Grouped columns groups) {rows : List Nat} (hrows : rows ∈ groups) :
    rows.length ≤ t.rowCount := by
  have hall : groups.flatten.length = t.rowCount := by rw [h.rows.length_eq, List.length_range]
  exact hall ▸ (List.sublist_flatten_of_mem hrows).length_le

end Grouped

/-- The column shows the cells of a key column in the first rows of the groups. -/
def ShowsKey (t : Table) (groups : List (List Nat)) (key : String) (c : Column) : Prop :=
  c.name = key ∧ ∃ source, t.column? key = some source ∧
    c.values = groups.map fun rows => source.value (rows.headD 0)

/-- The column shows for each group the value of the aggregate's function in the table of the group's
rows, over the range of all rows of the aggregated column. -/
def ShowsAggregate (t : Table) (groups : List (List Nat)) (a : Aggregation) (c : Column) : Prop :=
  ∃ i source, t.column? a.column = some source ∧ t.columns[i]? = some source ∧
    List.Forall₂ (fun rows v => ∀ target corner opposite,
      RangeAddress.parseCorners corner opposite = .ok ((t.takeRows rows).columnRange i) →
      v = eval ⟨t.takeRows rows, target⟩
        (.call (Function.aggregate a.aggregate).name [.range corner opposite])) groups c.values

theorem showsAggregate_of_values (hgroups : ∀ rows ∈ groups, rows ≠ []) {a : Aggregation}
    {source c : Column} (hsource : t.column? a.column = some source)
    (hc : c.values = aggregateValues groups a.aggregate source) : t.ShowsAggregate groups a c := by
  obtain ⟨i, hi⟩ := List.mem_iff_getElem?.mp (of_column?_eq_some hsource).1
  refine ⟨i, source, hsource, hi, ?_⟩
  rw [hc, aggregateValues, List.forall₂_map_right_iff, List.forall₂_same]
  intro rows hrows target corner opposite h
  rw [eval_aggregate_takeRows hi (hgroups rows hrows) h]

theorem forall₂_sources {aggregations : List Aggregation}
    (h : ∀ a ∈ aggregations, a.column ∈ t.names) :
    List.Forall₂ (fun a c => t.column? a.column = some c) aggregations
      ((aggregations.map (·.column)).filterMap t.column?) :=
  List.forall₂_map_left_iff.mp (mapM_require (List.forall_mem_map.mpr h)).2

/-- A grouping by different columns that are there succeeds, with its aggregates behind its keys. -/
theorem groupBy_eq_ok {keys : List String} {aggregations : List Aggregation} (hkeys : keys ≠ [])
    (hnodup : keys.Nodup) (hthere : ∀ key ∈ keys, key ∈ t.names)
    (hsources : ∀ a ∈ aggregations, a.column ∈ t.names) :
    let keyColumns := keys.filterMap t.column?
    let groups := t.rowClasses keyColumns
    let sources := (aggregations.map (·.column)).filterMap t.column?
    t.groupBy keys aggregations = .ok ⟨addAggregates groups (keyColumns.map (keyColumn groups))
      (aggregations.zip sources), groups.length⟩ := by
  intro keyColumns groups sources
  have hrequired : aggregations.mapM (fun a => t.require a.column) = .ok sources :=
    List.mapM_map.symm.trans (mapM_require (List.forall_mem_map.mpr hsources)).1
  have hnames : (keyColumns.map (keyColumn groups)).map (·.name) = keys :=
    (names_keyColumns groups keyColumns).trans (names_filterMap_column? hthere)
  have hfits := addAggregates_fits (keyColumns_fits groups keyColumns) (aggregations.zip sources)
  rw [groupBy, if_neg hkeys, (mapM_require hthere).1, hrequired]
  refine ofColumns_eq_ok (fun c hc => (hfits c hc).length)
    (nodup_addAggregates (hnames.symm ▸ hnodup) _) fun hnil => absurd ?_ hkeys
  obtain ⟨added, hadded, -⟩ := exists_addAggregates (forall₂_sources hsources) groups
    (keyColumns.map (keyColumn groups))
  rw [← hnames, (List.append_eq_nil_iff.mp (hadded.symm.trans hnil)).1, List.map_nil]

/-- A grouping by different columns that are there succeeds. Its groups are a partition of the rows by
their key cells, it shows the key cells of each group's first row, and each aggregate is the value of
the function of its name over the whole column in the table of the group's rows. Addresses are there
to write that column in every table with numbers of 64 bits for its rows and columns. -/
theorem groupBy_grouped {keys : List String} {aggregations : List Aggregation} (hkeys : keys ≠ [])
    (hnodup : keys.Nodup) (hthere : ∀ key ∈ keys, key ∈ t.names)
    (hsources : ∀ a ∈ aggregations, a.column ∈ t.names) :
    ∃ groups shown added,
      t.groupBy keys aggregations = .ok ⟨shown ++ added, groups.length⟩ ∧
      t.Grouped (keys.filterMap t.column?) groups ∧
      List.Forall₂ (t.ShowsKey groups) keys shown ∧
      List.Forall₂ (t.ShowsAggregate groups) aggregations added ∧
      (t.rowCount ≤ maxOrdinal → t.columnCount ≤ maxOrdinal →
        ∀ rows ∈ groups, ∀ i < t.columnCount,
          RangeAddress.parseCorners (CellAddress.toText ⟨0, i⟩)
            (CellAddress.toText ⟨rows.length - 1, i⟩) = .ok ((t.takeRows rows).columnRange i)) := by
  let keyColumns := keys.filterMap t.column?
  let groups := t.rowClasses keyColumns
  have hgrouped : t.Grouped keyColumns groups := grouped_rowClasses t keyColumns
  obtain ⟨added, hadded, haggregates⟩ :=
    exists_addAggregates (forall₂_sources hsources) groups (keyColumns.map (keyColumn groups))
  refine ⟨groups, keyColumns.map (keyColumn groups), added, ?_, hgrouped, ?_,
    haggregates.imp fun a c h => ?_, fun hrowCount hcolumnCount rows hrows i hi => ?_⟩
  · rw [groupBy_eq_ok hkeys hnodup hthere hsources, hadded]
  · exact List.forall₂_map_right_iff.mpr ((mapM_require hthere).2.imp fun key source hsource =>
      ⟨(of_column?_eq_some hsource).2, source, hsource, rfl⟩)
  · obtain ⟨source, hsource, hc⟩ := h
    exact showsAggregate_of_values (fun rows => hgrouped.ne_nil) hsource hc
  · have hfilled : 0 < rows.length := List.length_pos_iff.mpr (hgrouped.ne_nil hrows)
    have hlength := hgrouped.length_le hrows
    exact RangeAddress.parseCorners_toText (by dsimp only; omega) (by dsimp only; omega)
      (Nat.zero_le _) (Nat.le_refl i)

/-- A table of sales, the region of one of them being an error. -/
def sales : Table :=
  ⟨[⟨"region", .text, [.text "north", .text "south", .error .invalidRef, .text "north"]⟩,
    ⟨"amount", .number, [.number 2.0, .number 1.0, .number 4.0, .missing]⟩], 4⟩

theorem groupBy_sales_grouped :
    (sales.Valid ∧ ["region"].Nodup ∧ (∀ key ∈ ["region"], key ∈ sales.names) ∧
      ∀ a ∈ [⟨.sum, "amount"⟩], Aggregation.column a ∈ sales.names) ∧
    ∃ groups : List (List Nat), groups.length = 3 ∧
      sales.Grouped (["region"].filterMap sales.column?) groups ∧
      sales.ShowsKey groups "region"
        ⟨"region", .text, [.text "north", .text "south", .error .invalidRef]⟩ ∧
      sales.ShowsAggregate groups ⟨.sum, "amount"⟩
        ⟨"amount_sum", .number, [.number 2.0, .number 1.0, .number 4.0]⟩ ∧
      ∀ rows ∈ groups, RangeAddress.parseCorners (CellAddress.toText ⟨0, 1⟩)
        (CellAddress.toText ⟨rows.length - 1, 1⟩) = .ok ((sales.takeRows rows).columnRange 1) := by
  have hvalid : sales.Valid := by decide
  have hthere : ∀ key ∈ ["region"], key ∈ sales.names := by decide
  have hsources : ∀ a ∈ [⟨.sum, "amount"⟩], Aggregation.column a ∈ sales.names := by decide
  have hclasses : sales.rowClasses (["region"].filterMap sales.column?) = [[0, 3], [1], [2]] := by
    decide +kernel
  have hmade : sales.groupBy ["region"] [⟨.sum, "amount"⟩] = .ok
      ⟨[⟨"region", .text, [.text "north", .text "south", .error .invalidRef]⟩,
        ⟨"amount_sum", .number, [.number 2.0, .number 1.0, .number 4.0]⟩], 3⟩ := by
    rw [groupBy, if_neg (List.cons_ne_nil _ _), (mapM_require hthere).1]
    dsimp only [bind, Except.bind, pure, Except.pure]
    rw [hclasses]
    decide +kernel
  obtain ⟨groups, shown, added, hgroups, hgrouped, hshown, hadded, haddresses⟩ :=
    groupBy_grouped (List.cons_ne_nil _ _) (List.nodup_singleton _) hthere hsources
  obtain ⟨hcolumns, hlength⟩ := Table.mk.inj (Except.ok.inj (hgroups.symm.trans hmade))
  obtain ⟨key, _, hkey, ⟨⟩, rfl⟩ := List.forall₂_cons_left_iff.mp hshown
  obtain ⟨aggregate, _, haggregate, ⟨⟩, rfl⟩ := List.forall₂_cons_left_iff.mp hadded
  obtain ⟨rfl, hrest⟩ := List.cons.inj hcolumns
  obtain ⟨rfl, -⟩ := List.cons.inj hrest
  exact ⟨⟨hvalid, List.nodup_singleton _, hthere, hsources⟩, groups, hlength, hgrouped, hkey,
    haggregate, fun rows hrows => haddresses (by decide) (by decide) rows hrows 1 (by decide)⟩

end Table

end Tabular
