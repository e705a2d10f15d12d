import Mathlib.Data.List.Sort
import Tabular.Proofs.Table.Group
import Tabular.Proofs.Table.Rows
import Tabular.Table.Distinct

/-!
# Distinct rows

A row is new if it holds an error or no row before it has the same keys. The keys seen on the way
through the rows are those of the rows before, so that the rows left are the new ones. Among them
every row is new, and to drop repeated rows once more changes nothing. The new rows are also the
first rows of the groups by all columns.
-/
namespace Tabular

theorem exists_eq_some_iff {κ : Type} {a b : Option κ} (h : a ≠ none) :
    (∃ k, a = some k ∧ b = some k) ↔ b = a := by
  obtain ⟨k, rfl⟩ := Option.ne_none_iff_exists'.mp h
  simp

section
variable {κ : Type} {key : Nat → Option κ} {n : Nat} {seen : List κ} {k : κ}

/-- The keys seen are those of the numbers below `n`. -/
def Seen (key : Nat → Option κ) (n : Nat) (seen : List κ) : Prop :=
  ∀ k, k ∈ seen ↔ ∃ j < n, key j = some k

namespace Seen

theorem nil : Seen key 0 [] := fun k => by simp

theorem keyless (h : Seen key n seen) (hkey : key n = none) : Seen key (n + 1) seen := fun k => by
  rw [h k, Nat.exists_lt_succ_right, hkey]
  simp

theorem repeated (h : Seen key n seen) (hkey : key n = some k) (hk : k ∈ seen) :
    Seen key (n + 1) seen := fun k' => by
  rw [h k', Nat.exists_lt_succ_right, hkey]
  refine ⟨.inl, ?_⟩
  rintro (hbefore | heq)
  · exact hbefore
  · exact (h k').mp (Option.some.inj heq ▸ hk)

theorem fresh (h : Seen key n seen) (hkey : key n = some k) : Seen key (n + 1) (k :: seen) :=
  fun k' => by
    rw [List.mem_cons, h k', Nat.exists_lt_succ_right, hkey, Option.some.injEq, eq_comm, or_comm]

end Seen

/-- The numbers left are those without a key and those whose key no number before has. -/
theorem unseen_range' [DecidableEq κ] (h : Seen key n seen) (count : Nat) :
    unseen key seen (List.range' n count) =
      (List.range' n count).filter fun i => key i = none ∨ ∀ j < i, key j ≠ key i := by
  -- at every number the keys seen decide what the filter asks of all numbers before
  induction count generalizing n seen with
  | zero => rfl
  | succ count ih =>
    rw [List.range'_succ, unseen]
    cases hkey : key n with
    | none =>
      rw [List.filter_cons_of_pos (by simp [hkey]), ← ih (h.keyless hkey)]
    | some k =>
      dsimp only
      split
      next hk =>
        have hbefore : ∃ j < n, key j = some k := (h k).mp hk
        rw [List.filter_cons_of_neg (by simpa [hkey] using hbefore), ← ih (h.repeated hkey hk)]
      next hk =>
        have hnew : ∀ j < n, key j ≠ some k := fun j hj heq => hk ((h k).mpr ⟨j, hj, heq⟩)
        rw [List.filter_cons_of_pos (by simpa [hkey] using hnew), ← ih (h.fresh hkey)]

end

theorem Value.isError_eq_of_key? {v w : Value} (h : v.key? = w.key?) : v.isError = w.isError := by
  rw [Bool.eq_iff_iff, ← key?_eq_none_iff, ← key?_eq_none_iff, h]

namespace Table

variable {t : Table} {columns : List Column} {groups : List (List Nat)} {rows : List Nat} {i : Nat}

/-- The row holds an error, or each row before it has another key in some column. -/
def IsNew (t : Table) (i : Nat) : Prop :=
  (∃ c ∈ t.columns, (c.value i).isError = true) ∨
    ∀ j < i, ∃ c ∈ t.columns, (c.value j).key? ≠ (c.value i).key?

instance (t : Table) (i : Nat) : Decidable (t.IsNew i) :=
  inferInstanceAs (Decidable ((∃ c ∈ t.columns, (c.value i).isError = true) ∨
    ∀ j < i, ∃ c ∈ t.columns, (c.value j).key? ≠ (c.value i).key?))

/-- The new rows, in the order of the table. -/
def newRows (t : Table) : List Nat := (List.range t.rowCount).filter (t.IsNew ·)

theorem mem_newRows : i ∈ t.newRows ↔ i < t.rowCount ∧ t.IsNew i := by
  simp [newRows]

theorem pairwise_newRows (t : Table) : t.newRows.Pairwise (· < ·) :=
  List.pairwise_lt_range.filter _

/-- A row is new if it has no key or another one than each row before it. -/
theorem isNew_iff : t.IsNew i ↔
    keyOf (t.row i) = none ∨ ∀ j < i, keyOf (t.row j) ≠ keyOf (t.row i) := by
  have hnone : keyOf (t.row i) = none ↔ ∃ c ∈ t.columns, (c.value i).isError = true := by
    simp [keyOf_eq_none, row]
  rw [IsNew, ← hnone]
  refine or_congr_right' fun hkey => forall₂_congr fun j _ => ?_
  have hkeys : ∀ c ∈ t.columns, (c.value i).key? ≠ none := fun c hc h =>
    hkey (hnone.mpr ⟨c, hc, Value.key?_eq_none_iff.mp h⟩)
  have hsame : keyOf (t.row j) = keyOf (t.row i) ↔
      ∀ c ∈ t.columns, (c.value j).key? = (c.value i).key? := by
    rw [← exists_eq_some_iff hkey]
    exact sameKey_iff.trans (forall₂_congr fun c hc => exists_eq_some_iff (hkeys c hc))
  rw [ne_eq, hsame]
  push Not
  rfl

namespace Grouped

theorem exists_mem_iff (h : t.Grouped columns groups) :
    (∃ rows ∈ groups, i ∈ rows) ↔ i < t.rowCount := by
  rw [← List.mem_flatten, h.rows.mem_iff, List.mem_range]

/-- No row is in two groups. -/
theorem eq_of_mem_of_mem (h : t.Grouped columns groups) {rows' : List Nat} (hrows : rows ∈ groups)
    (hrows' : rows' ∈ groups) (hi : i ∈ rows) (hi' : i ∈ rows') : rows = rows' := by
  have hsymm : Std.Symm (List.Disjoint (α := Nat)) := ⟨fun _ _ => List.disjoint_symm⟩
  have hnodup : groups.flatten.Nodup := h.rows.nodup_iff.mpr List.nodup_range
  by_contra hne
  exact (List.nodup_flatten.mp hnodup).2.forall hrows hrows' hne hi hi'

theorem le_of_head? (h : t.Grouped columns groups) (hrows : rows ∈ groups) (hi : rows.head? = some i)
    {j : Nat} (hj : j ∈ rows) : i ≤ j := by
  obtain ⟨rest, rfl⟩ := List.head?_eq_some_iff.mp hi
  obtain rfl | hj := List.mem_cons.mp hj
  · exact le_rfl
  · exact ((List.pairwise_cons.mp (h.ascending _ hrows)).1 j hj).le

theorem isNew_of_head? (h : t.Grouped t.columns groups) (hrows : rows ∈ groups)
    (hi : rows.head? = some i) : t.IsNew i := by
  have hmem : i ∈ rows := List.mem_of_head? hi
  have hlt : i < t.rowCount := h.exists_mem_iff.mp ⟨rows, hrows, hmem⟩
  refine or_iff_not_imp_left.mpr fun herror j hj => ?_
  by_contra hsame
  push Not at herror hsame
  -- a row before it with the same keys would be in its group, of which it is the first
  obtain ⟨rows', hrows', hjmem, himem⟩ := (h.together j i (hj.trans hlt) hlt hj.ne).mpr fun c hc => by
    have hnot : (c.value i).isError = false := Bool.eq_false_iff.mpr (herror c hc)
    exact ⟨(Value.isError_eq_of_key? (hsame c hc)).trans hnot, hnot, hsame c hc⟩
  obtain rfl := h.eq_of_mem_of_mem hrows hrows' hmem himem
  exact Nat.not_le_of_lt hj (h.le_of_head? hrows hi hjmem)

theorem head?_of_isNew (h : t.Grouped t.columns groups) (hrows : rows ∈ groups) (hi : i ∈ rows)
    (hnew : t.IsNew i) : rows.head? = some i := by
  obtain ⟨k, hk⟩ := Option.ne_none_iff_exists'.mp (mt List.head?_eq_none_iff.mp (h.ne_nil hrows))
  have hkmem : k ∈ rows := List.mem_of_head? hk
  have hlt {j : Nat} (hj : j ∈ rows) : j < t.rowCount := h.exists_mem_iff.mp ⟨rows, hrows, hj⟩
  obtain hki | rfl := (h.le_of_head? hrows hk hi).lt_or_eq
  · -- the first row of the group would come before it with the same keys
    have hsame := (h.together k i (hlt hkmem) (hlt hi) hki.ne).mp ⟨rows, hrows, hkmem, hi⟩
    obtain ⟨c, hc, herror⟩ | hdiffer := hnew
    · exact absurd herror (Bool.eq_false_iff.mp (hsame c hc).2.1)
    · obtain ⟨c, hc, hne⟩ := hdiffer k hki
      exact absurd (hsame c hc).2.2 hne
  · exact hk

/-- The first rows of the groups by all columns are the new rows. -/
theorem map_head?_eq (h : t.Grouped t.columns groups) :
    groups.map List.head? = t.newRows.map some := by
  obtain ⟨firsts, hfirsts, hascending⟩ := h.firsts
  have hmem (i : Nat) : i ∈ firsts ↔ ∃ rows ∈ groups, rows.head? = some i := by
    rw [← List.mem_map, hfirsts, List.mem_map_of_injective (Option.some_injective _)]
  rw [hfirsts, hascending.eq_of_mem_iff t.pairwise_newRows fun i => ?_]
  rw [hmem, mem_newRows]
  constructor
  · rintro ⟨rows, hrows, hi⟩
    exact ⟨h.exists_mem_iff.mp ⟨rows, hrows, List.mem_of_head? hi⟩, h.isNew_of_head? hrows hi⟩
  · rintro ⟨hlt, hnew⟩
    obtain ⟨rows, hrows, hi⟩ := h.exists_mem_iff.mpr hlt
    exact ⟨rows, hrows, h.head?_of_isNew hrows hi hnew⟩

end Grouped

theorem distinctRows_eq (t : Table) : t.distinctRows = t.takeRows t.newRows := by
  rw [distinctRows, newRows, List.range_eq_range', unseen_range' Seen.nil]
  exact congrArg _ (List.filter_congr fun i _ => decide_eq_decide.mpr isNew_iff.symm)

/-- A row that is new in a table is new among some of its rows. -/
theorem IsNew.takeRows (h : t.IsNew i) (hrows : rows.Pairwise (· < ·)) {k : Nat}
    (hk : rows[k]? = some i) : (t.takeRows rows).IsNew k := by
  have hmem {c : Column} (hc : c ∈ t.columns) : c.takeRows rows ∈ (t.takeRows rows).columns :=
    List.mem_map_of_mem hc
  obtain ⟨c, hc, herror⟩ | hdiffer := h
  · exact .inl ⟨_, hmem hc, by rwa [Column.value_takeRows hk]⟩
  · refine .inr fun j hj => ?_
    obtain ⟨hklt, rfl⟩ := List.getElem?_eq_some_iff.mp hk
    have hlt : rows[j] < rows[k] := List.pairwise_iff_getElem.mp hrows j k (hj.trans hklt) hklt hj
    obtain ⟨c, hc, hne⟩ := hdiffer _ hlt
    refine ⟨_, hmem hc, ?_⟩
    rwa [Column.value_takeRows hk, Column.value_takeRows (List.getElem?_eq_getElem _)]

theorem newRows_takeRows_newRows (t : Table) :
    (t.takeRows t.newRows).newRows = List.range t.newRows.length := by
  refine List.filter_eq_self.mpr fun k hk => decide_eq_true ?_
  have hk : k < t.newRows.length := List.mem_range.mp hk
  exact (mem_newRows.mp (List.getElem_mem hk)).2.takeRows t.pairwise_newRows
    (List.getElem?_eq_getElem hk)

theorem distinctRows_distinctRows (t : Table) : t.distinctRows.distinctRows = t.distinctRows := by
  rw [distinctRows_eq t, distinctRows_eq, newRows_takeRows_newRows]
  refine takeRows_range fun c hc => ?_
  obtain ⟨source, -, rfl⟩ := List.mem_map.mp hc
  exact List.length_map ..

theorem Grouped.map_headD (h : t.Grouped t.columns groups) : groups.map (·.headD 0) = t.newRows := by
  have hheadD : (fun rows : List Nat => rows.headD 0) = (Option.getD · 0) ∘ List.head? :=
    funext fun rows => List.headD_eq_head?_getD
  rw [hheadD, ← List.map_map, h.map_head?_eq, List.map_map]
  exact List.map_id _

/-- Grouping by all columns gives the distinct rows, with column types inferred anew. -/
theorem Valid.groupBy_names (h : t.Valid) (hcolumns : t.columns ≠ []) :
    t.groupBy t.names [] = .ok
      ⟨t.distinctRows.columns.map fun c => .ofValues c.name c.values, t.distinctRows.rowCount⟩ := by
  have hfirsts := (grouped_rowClasses t t.columns).map_headD
  have hcount : (t.rowClasses t.columns).length = t.newRows.length := by
    rw [← hfirsts, List.length_map]
  have hkey (c : Column) : keyColumn (t.rowClasses t.columns) c =
      .ofValues c.name (c.takeRows t.newRows).values := by
    rw [keyColumn, Column.takeRows, ← hfirsts, List.map_map]
    rfl
  have hnames : t.names.filterMap t.column? = t.columns := h.filterMap_column? fun _ => id
  have hgroup := @groupBy_eq_ok t t.names [] (mt List.map_eq_nil_iff.mp hcolumns) h.names
    (fun _ => id) (List.forall_mem_nil _)
  rw [hnames] at hgroup
  dsimp only at hgroup
  rw [hgroup, List.zip_nil_left, addAggregates, hcount, List.map_congr_left fun c _ => hkey c,
    distinctRows_eq, Table.takeRows, List.map_map]
  rfl

theorem rows_map_ofValues (t : Table) :
    (Table.mk (t.columns.map fun c => .ofValues c.name c.values) t.rowCount).rows = t.rows := by
  refine List.map_congr_left fun i _ => ?_
  rw [row, row, List.map_map]
  rfl

/-- The distinct rows are the new rows, in their order. To drop repeated rows once more changes
nothing, and grouping by all columns gives the same names and rows. -/
theorem Valid.distinctRows_new (h : t.Valid) :
    t.distinctRows = t.takeRows ((List.range t.rowCount).filter (t.IsNew ·)) ∧
    t.distinctRows.rows = ((List.range t.rowCount).filter (t.IsNew ·)).map t.row ∧
    t.distinctRows.distinctRows = t.distinctRows ∧
    (t.columns ≠ [] → ∃ grouped, t.groupBy t.names [] = .ok grouped ∧
      grouped.names = t.distinctRows.names ∧ grouped.rows = t.distinctRows.rows) := by
  refine ⟨distinctRows_eq t, ?_, distinctRows_distinctRows t, fun hcolumns => ?_⟩
  · rw [distinctRows_eq, rows_takeRows]
    rfl
  · exact ⟨_, h.groupBy_names hcolumns, List.map_map, rows_map_ofValues _⟩

/-- Deliveries, two of them listed twice: zeros of either sign are equal, and so are blanks, but not
errors. -/
def deliveries : Table :=
  ⟨[⟨"item", .text, ["nut", "bolt", "nut", "pin", "pin", "bolt"].map .text⟩,
    ⟨"count", .number, [.number 0.0, .missing, .number (-0.0), .error .divByZero, .error .divByZero,
      .missing]⟩], 6⟩

theorem distinctRows_deliveries : deliveries.Valid ∧ deliveries.columns ≠ [] ∧
    deliveries.distinctRows = deliveries.takeRows [0, 1, 3, 4] ∧
    ∃ grouped, deliveries.groupBy ["item", "count"] [] = .ok grouped ∧
      grouped.rows = deliveries.distinctRows.rows := by
  have hvalid : deliveries.Valid := by decide
  have hcolumns : deliveries.columns ≠ [] := List.cons_ne_nil _ _
  have hnew : (List.range deliveries.rowCount).filter (deliveries.IsNew ·) = [0, 1, 3, 4] := by
    decide
  obtain ⟨hdistinct, -, -, hgroup⟩ := hvalid.distinctRows_new
  obtain ⟨grouped, hgrouped, -, hrows⟩ := hgroup hcolumns
  exact ⟨hvalid, hcolumns, hnew ▸ hdistinct, grouped, hgrouped, hrows⟩

end Table

end Tabular
