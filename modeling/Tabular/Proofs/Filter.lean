import Tabular.Filter
import Tabular.Proofs.Table.Columns
import Tabular.Proofs.Table.Sort
import Tabular.Proofs.Value.Comparison

/-!
# Filters

A filter keeps the rows whose value compares with the literal as asked. The comparisons with one
literal divide the rows of a table among them. Whether a row is kept depends on its value and on the
type of the column alone, which no choice of rows changes, so that filters commute with each other
and with sorting.
-/
namespace Tabular

theorem Value.isNaN_infer (s : String) : (infer s).isNaN = false := by
  unfold infer
  dsimp only
  repeat' split
  any_goals rfl
  next x hx => exact (Double.isNaN_ofFloat x).trans (Number.isNaN_of_parseFinite? hx)

theorem ColumnType.isNaN_read (type : ColumnType) (s : String) : (type.read s).isNaN = false := by
  unfold read
  split
  · rfl
  cases type with
  | mixed => exact Value.isNaN_infer s
  | text => rfl
  | number =>
    dsimp only
    split
    next x hx => exact (Double.isNaN_ofFloat x).trans (Number.isNaN_of_parseFinite? hx)
    next => rfl
  | boolean =>
    dsimp only
    split <;> rfl

namespace Predicate

theorem isNaN_typedLiteral (p : Predicate) (type : ColumnType) :
    (p.typedLiteral type).isNaN = false := by
  unfold typedLiteral
  split
  · rfl
  · exact type.isNaN_read p.literal

end Predicate

theorem Column.isNaN_value {c : Column} (hnan : ∀ v ∈ c.values, v.isNaN = false) (i : Nat) :
    (c.value i).isNaN = false := by
  obtain hi | hi := c.value_mem_or_missing i
  · exact hnan _ hi
  · rw [hi]
    rfl

namespace Predicate

/-- Whether the predicate holds of a row of the column. -/
def holdsIn (p : Predicate) (c : Column) (i : Nat) : Bool :=
  (c.value i).holds p.op (p.typedLiteral c.type)

theorem rowsOf_eq (p : Predicate) (c : Column) :
    p.rowsOf c = (List.range c.values.length).filter (p.holdsIn c) := by
  rw [rowsOf, ← c.map_snd_zipIdx, List.filter_map]
  refine congrArg _ (List.filter_congr fun a ha => ?_)
  rw [Function.comp_apply, holdsIn, Column.value_of_mem_zipIdx ha]

theorem mem_rowsOf {p : Predicate} {c : Column} {i : Nat} :
    i ∈ p.rowsOf c ↔ i < c.values.length ∧ p.holdsIn c i = true := by
  rw [rowsOf_eq, List.mem_filter, List.mem_range]

theorem pairwise_rowsOf (p : Predicate) (c : Column) : (p.rowsOf c).Pairwise (· < ·) := by
  rw [rowsOf_eq]
  exact List.pairwise_lt_range.filter _

/-- Comparisons with one literal that exclude each other keep no row in common. -/
theorem disjoint_rowsOf (p : Predicate) {c : Column} (hnan : ∀ v ∈ c.values, v.isNaN = false)
    {op op' : Comparison} (hexcludes : ∀ o, op.holds o = true → op'.holds o = false) :
    ({ p with op }.rowsOf c).Disjoint ({ p with op := op' }.rowsOf c) := by
  intro i hi hi'
  have hnot := Value.not_holds_of_excludes (Column.isNaN_value hnan i) (p.isNaN_typedLiteral c.type)
    hexcludes (mem_rowsOf.mp hi).2
  exact Bool.eq_false_iff.mp hnot (mem_rowsOf.mp hi').2

theorem holdsIn_takeRows (p : Predicate) (c : Column) {rows : List Nat} {k : Nat}
    (hk : k < rows.length) : p.holdsIn (c.takeRows rows) k = p.holdsIn c (rowAt rows k) := by
  rw [holdsIn, holdsIn, Column.value_takeRows (getElem?_eq_rowAt hk)]
  rfl

end Predicate

namespace Table

variable {t : Table} {c : Column} {p : Predicate}

theorem filter_eq_ok (h : t.column? p.column = some c) : t.filter p = .ok (t.takeRows (p.rowsOf c)) := by
  rw [filter, require, h]
  rfl

/-- The rows that each comparison with a literal keeps divide the rows of the table among them. -/
structure Divided (t : Table) (c : Column) (literal : Value) (kept : Comparison → List Nat) :
    Prop where
  /-- Rows stay in the order of the table. -/
  ascending : ∀ op, (kept op).Pairwise (· < ·)
  /-- Nothing compares with an error. -/
  error : literal.isError = true → ∀ op, kept op = []
  /-- A value that is no error is either equal to the literal or unequal. -/
  equality : literal.isError = false → (kept .eq).Disjoint (kept .ne) ∧
    ∀ i, i ∈ kept .eq ∨ i ∈ kept .ne ↔ i < t.rowCount ∧ (c.value i).isError = false
  /-- Of the category of the literal, a value is either less, equal or greater, and so it is if it or
  the literal is missing. -/
  order : literal.isError = false → (kept .lt).Disjoint (kept .eq) ∧ (kept .lt).Disjoint (kept .gt) ∧
    (kept .eq).Disjoint (kept .gt) ∧ ∀ i, i ∈ kept .lt ∨ i ∈ kept .eq ∨ i ∈ kept .gt ↔
      i < t.rowCount ∧ (c.value i).isError = false ∧
        ((c.value i).category = literal.category ∨ c.value i = .missing ∨ literal = .missing)
  atMost : ∀ i, i ∈ kept .le ↔ i ∈ kept .lt ∨ i ∈ kept .eq
  atLeast : ∀ i, i ∈ kept .ge ↔ i ∈ kept .gt ∨ i ∈ kept .eq

/-- The filters of a column by the comparisons with one literal divide the rows of a table among them,
where no cell of the column holds what is not a number. -/
theorem Valid.filter_divided (h : t.Valid) (hc : t.column? p.column = some c)
    (hnan : ∀ v ∈ c.values, v.isNaN = false) :
    (∀ op, t.filter { p with op } = .ok (t.takeRows ({ p with op }.rowsOf c))) ∧
    t.Divided c (p.typedLiteral c.type) fun op => { p with op }.rowsOf c := by
  have hliteral := p.isNaN_typedLiteral c.type
  have hvalue := Column.isNaN_value hnan
  have hmem (op : Comparison) (i : Nat) : i ∈ { p with op }.rowsOf c ↔
      i < t.rowCount ∧ (c.value i).holds op (p.typedLiteral c.type) = true := by
    rw [Predicate.mem_rowsOf, h.lengths c (List.mem_of_find?_eq_some hc)]
    rfl
  refine ⟨fun op => filter_eq_ok hc, ?_⟩
  constructor
  case ascending => exact fun op => Predicate.pairwise_rowsOf _ c
  case error =>
    refine fun herror op => List.eq_nil_iff_forall_not_mem.mpr fun i hi => ?_
    rw [hmem, Value.holds_of_isError (.inr herror)] at hi
    exact Bool.false_ne_true hi.2
  case equality =>
    refine fun hnot => ⟨p.disjoint_rowsOf hnan fun o => by cases o <;> decide, fun i => ?_⟩
    rw [hmem, hmem, ← and_or_left, Value.holds_eq_or_ne (hvalue i) hliteral hnot]
  case order =>
    refine fun hnot => ⟨p.disjoint_rowsOf hnan fun o => by cases o <;> decide,
      p.disjoint_rowsOf hnan fun o => by cases o <;> decide,
      p.disjoint_rowsOf hnan fun o => by cases o <;> decide, fun i => ?_⟩
    rw [hmem, hmem, hmem, ← and_or_left, ← and_or_left,
      Value.holds_lt_or_eq_or_gt (hvalue i) hliteral hnot]
    rfl
  case atMost =>
    intro i
    rw [hmem, hmem, hmem, ← and_or_left, Value.holds_le_iff (hvalue i) hliteral]
  case atLeast =>
    intro i
    rw [hmem, hmem, hmem, ← and_or_left, Value.holds_ge_iff (hvalue i) hliteral]

/-- Cells of every kind, two of them as the literal `0` of the filters below. -/
def samples : Table :=
  ⟨[⟨"value", .mixed, [.number (-0.0), .missing, .text "0", .number 2.5, .error .divByZero,
      .number (-1.0), .boolean false, .number 0.0]⟩], 8⟩

theorem filter_divided_samples :
    (samples.Valid ∧ samples.column? "value" = some samples.columns[0] ∧
      ∀ v ∈ samples.columns[0].values, v.isNaN = false) ∧
    samples.filter ⟨"value", .lt, "0", false⟩ = .ok (samples.takeRows [1, 5]) ∧
    samples.Divided samples.columns[0] (.number 0.0) fun op =>
      Predicate.rowsOf ⟨"value", op, "0", false⟩ samples.columns[0] := by
  have hvalid : samples.Valid := by decide
  have hcolumn : samples.column? "value" = some samples.columns[0] := by decide
  have hnan : ∀ v ∈ samples.columns[0].values, v.isNaN = false := by decide
  have hliteral : Predicate.typedLiteral ⟨"value", .eq, "0", false⟩ .mixed = .number 0.0 := by
    decide +kernel
  have hrows : Predicate.rowsOf ⟨"value", .lt, "0", false⟩ samples.columns[0] = [1, 5] := by
    decide +kernel
  obtain ⟨hfilter, hdivided⟩ := @Valid.filter_divided samples samples.columns[0]
    ⟨"value", .eq, "0", false⟩ hvalid hcolumn hnan
  exact ⟨⟨hvalid, hcolumn, hnan⟩, hrows ▸ hfilter .lt, hliteral ▸ hdivided⟩

/-- To filter rows that are taken is to take those of them of which the predicate holds. -/
theorem filter_takeRows (hc : t.column? p.column = some c) (rows : List Nat) :
    (t.takeRows rows).filter p = .ok (t.takeRows (rows.filter (p.holdsIn c))) := by
  have hlength : (c.takeRows rows).values.length = rows.length := List.length_map ..
  have hpicks : ∀ k ∈ p.rowsOf (c.takeRows rows), k < rows.length := fun k hk =>
    hlength ▸ (Predicate.mem_rowsOf.mp hk).1
  have hrows : (p.rowsOf (c.takeRows rows)).map (rowAt rows) = rows.filter (p.holdsIn c) := by
    conv_rhs => rw [← map_rowAt_range rows]
    rw [Predicate.rowsOf_eq, hlength, List.filter_map]
    refine congrArg _ (List.filter_congr fun k hk => ?_)
    exact p.holdsIn_takeRows c (List.mem_range.mp hk)
  rw [filter_eq_ok (column?_takeRows hc rows), takeRows_takeRows hpicks, hrows]

/-- A filter of a table takes, of all its rows, those of which the predicate holds. -/
theorem Valid.filter_eq_ok (h : t.Valid) (hc : t.column? p.column = some c) :
    t.filter p = .ok (t.takeRows ((List.range t.rowCount).filter (p.holdsIn c))) := by
  have hfilter := filter_takeRows hc (List.range t.rowCount)
  rwa [takeRows_range h.lengths] at hfilter

/-- A sort of a table takes all its rows in the order of the column. -/
theorem Valid.sort_eq_ok (h : t.Valid) {name : String} (hc : t.column? name = some c)
    (descending : Bool) : t.sort name descending =
      .ok (t.takeRows ((List.range t.rowCount).mergeSort (c.precedes descending))) := by
  have hsort := sort_takeRows hc descending (List.range t.rowCount)
  rwa [takeRows_range h.lengths] at hsort

/-- Filters by columns that are there succeed and commute, with each other and with sorting. -/
theorem Valid.filter_commutes (h : t.Valid) {q : Predicate} {name : String}
    (hp : p.column ∈ t.names) (hq : q.column ∈ t.names) (hname : name ∈ t.names) (descending : Bool) :
    (∃ kept, (t.filter p >>= fun u => u.filter q) = .ok kept ∧
      (t.filter q >>= fun u => u.filter p) = .ok kept) ∧
    ∃ sorted, (t.sort name descending >>= fun u => u.filter p) = .ok sorted ∧
      (t.filter p >>= fun u => u.sort name descending) = .ok sorted := by
  obtain ⟨c, hc⟩ := exists_column?_of_mem_names hp
  obtain ⟨d, hd⟩ := exists_column?_of_mem_names hq
  obtain ⟨key, hkey⟩ := exists_column?_of_mem_names hname
  rw [h.filter_eq_ok hc, h.filter_eq_ok hd, h.sort_eq_ok hkey]
  refine ⟨⟨_, filter_takeRows hd _, ?_⟩, _, filter_takeRows hc _, ?_⟩
  · exact (filter_takeRows hc _).trans (by rw [List.filter_comm])
  · refine (sort_takeRows hkey descending _).trans ?_
    rw [filter_mergeSort key.precedes_trans key.precedes_total]

/-- Orders, two of one amount. -/
def orders : Table :=
  ⟨[⟨"region", .text, ["north", "south", "west", "north", "south"].map .text⟩,
    ⟨"amount", .number, [.number 2.0, .number 7.0, .missing, .number 5.0, .number 2.0]⟩], 5⟩

theorem filter_commutes_orders :
    (orders.Valid ∧ "region" ∈ orders.names ∧ "amount" ∈ orders.names) ∧
    (∃ kept, (orders.filter ⟨"region", .ne, "west", true⟩ >>=
        fun u => u.filter ⟨"amount", .lt, "6", false⟩) = .ok kept ∧
      (orders.filter ⟨"amount", .lt, "6", false⟩ >>=
        fun u => u.filter ⟨"region", .ne, "west", true⟩) = .ok kept) ∧
    ∃ sorted, (orders.sort "amount" true >>=
        fun u => u.filter ⟨"region", .ne, "west", true⟩) = .ok sorted ∧
      (orders.filter ⟨"region", .ne, "west", true⟩ >>= fun u => u.sort "amount" true) = .ok sorted := by
  have hvalid : orders.Valid := by decide
  have hregion : "region" ∈ orders.names := by decide
  have hamount : "amount" ∈ orders.names := by decide
  exact ⟨⟨hvalid, hregion, hamount⟩, hvalid.filter_commutes hregion hamount hamount true⟩

end Table

end Tabular
