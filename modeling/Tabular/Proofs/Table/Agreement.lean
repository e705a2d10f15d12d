import Tabular.Proofs.Filter
import Tabular.Proofs.Table.Distinct
import Tabular.Proofs.Value.Coherence

/-!
# Equal cells and rows in order

What compares as equal is the same everywhere. Rows whose cells compare as equal are in one group, all
but the first of them repeat a row, and a filter for equality keeps all of them or none. Sorting leaves
no row behind another one that compares as less with it. Errors compare as equal with nothing, not even
themselves, and so they do in groups; only what is not a number has a key and equals nothing.
-/
namespace Tabular

open Value

/-- No cell holds what is not a number. -/
def Column.NaNFree (c : Column) : Prop := ∀ v ∈ c.values, v.isNaN = false

instance (c : Column) : Decidable c.NaNFree :=
  inferInstanceAs (Decidable (∀ v ∈ c.values, v.isNaN = false))

/-- In each of the columns the cells of the two rows compare as equal. -/
def SameCells (columns : List Column) (i j : Nat) : Prop :=
  ∀ c ∈ columns, (c.value i).compare .eq (c.value j) = .boolean true

instance (columns : List Column) (i j : Nat) : Decidable (SameCells columns i j) :=
  inferInstanceAs (Decidable (∀ c ∈ columns, (c.value i).compare .eq (c.value j) = .boolean true))

theorem sameCells_iff {columns : List Column} {i j : Nat} (hnan : ∀ c ∈ columns, c.NaNFree) :
    SameCells columns i j ↔ ∀ c ∈ columns, (c.value i).isError = false ∧ (c.value j).isError = false ∧
      (c.value i).key? = (c.value j).key? :=
  forall₂_congr fun c hc => holds_iff.symm.trans
    (holds_eq_iff (c.isNaN_value (hnan c hc) i) (c.isNaN_value (hnan c hc) j))

namespace Table

variable {t u : Table} {columns : List Column} {i j : Nat}

theorem mem_same_group_iff (hnan : ∀ c ∈ columns, c.NaNFree) (hi : i < t.rowCount)
    (hj : j < t.rowCount) (hne : i ≠ j) :
    (∃ rows ∈ t.rowClasses columns, i ∈ rows ∧ j ∈ rows) ↔ SameCells columns i j :=
  ((grouped_rowClasses t columns).together i j hi hj hne).trans (sameCells_iff hnan).symm

/-- A row is new if no row before it has the same cells. -/
theorem isNew_iff_forall_not_sameCells (hnan : ∀ c ∈ t.columns, c.NaNFree) :
    t.IsNew j ↔ ∀ i < j, ¬SameCells t.columns i j := by
  simp only [sameCells_iff hnan]
  constructor
  · rintro (⟨c, hc, herror⟩ | hdiffer) i hi hsame
    · exact Bool.false_ne_true ((hsame c hc).2.1.symm.trans herror)
    · obtain ⟨c, hc, hne⟩ := hdiffer i hi
      exact hne (hsame c hc).2.2
  · intro hsame
    refine or_iff_not_imp_left.mpr fun herror i hi => ?_
    by_contra hkeys
    push Not at herror hkeys
    refine hsame i hi fun c hc => ?_
    have hsound : (c.value j).isError = false := Bool.eq_false_iff.mpr (herror c hc)
    exact ⟨(isError_eq_of_key? (hkeys c hc)).trans hsound, hsound, hkeys c hc⟩

theorem distinctRows_eq_filter (hnan : ∀ c ∈ t.columns, c.NaNFree) : t.distinctRows =
    t.takeRows ((List.range t.rowCount).filter fun j => ∀ i < j, ¬SameCells t.columns i j) := by
  rw [distinctRows_eq, newRows]
  exact congrArg _ (List.filter_congr fun j _ =>
    decide_eq_decide.mpr (isNew_iff_forall_not_sameCells hnan))

/-- Of a row that a filter for equality keeps, it keeps all rows that have the same cell. -/
theorem mem_rowsOf_iff_sameCells {p : Predicate} {c : Column} (hop : p.op = .eq) (hnan : c.NaNFree)
    (hi : i ∈ p.rowsOf c) (hj : j < c.values.length) : j ∈ p.rowsOf c ↔ SameCells [c] i j := by
  have hliteral := p.isNaN_typedLiteral c.type
  have hkept (k : Nat) : p.holdsIn c k = true ↔ (c.value k).isError = false ∧
      (p.typedLiteral c.type).isError = false ∧ (c.value k).key? = (p.typedLiteral c.type).key? := by
    rw [Predicate.holdsIn, hop]
    exact holds_eq_iff (c.isNaN_value hnan k) hliteral
  obtain ⟨hsound, hliteralSound, hkey⟩ := (hkept i).mp (Predicate.mem_rowsOf.mp hi).2
  rw [Predicate.mem_rowsOf, and_iff_right hj, hkept, sameCells_iff (List.forall_mem_singleton.mpr hnan),
    List.forall_mem_singleton, hkey]
  constructor
  · rintro ⟨hjsound, -, hjkey⟩
    exact ⟨hsound, hjsound, hjkey.symm⟩
  · rintro ⟨-, hjsound, hjkey⟩
    exact ⟨hjsound, hliteralSound, hjkey.symm⟩

theorem Valid.sort_ascending (h : t.Valid) {name : String} (hsort : t.sort name false = .ok u) :
    ∃ c, u.column? name = some c ∧ c.values.Pairwise fun v w => w.compare .lt v ≠ .boolean true := by
  obtain ⟨c, hc, hu⟩ := bind_eq_ok.mp hsort
  obtain rfl := Except.ok.inj hu
  have hcolumn := require_eq_ok.mp hc
  obtain rfl := (of_column?_eq_some hcolumn).2
  obtain ⟨d, hd, hordered⟩ := (h.sortedBy_takeRows hcolumn false).ordered
  refine ⟨d, hd, hordered.imp fun {v w} hvw hless => ?_⟩
  have hle : (v.sortOrder w).isLE = true := by
    revert hvw
    cases v.sortOrder w <;> decide
  exact Bool.false_ne_true ((not_holds_lt_of_isLE hle).symm.trans (holds_iff.mpr hless))

/-- Keys, comparisons and the order of sorting agree on values that are neither errors nor doubles that
are not numbers. So no row sorted later compares as less than one sorted earlier, and groups, repeated
rows and filters for equality go by the same cells. -/
theorem equality_coherent :
    (∀ v w : Value, v.isError = false → w.isError = false → v.isNaN = false → w.isNaN = false →
      (v.key? = w.key? ↔ v.compare .eq w = .boolean true) ∧
      (v.compare .lt w = .boolean true → v.sortOrder w = .lt) ∧
      (v.sortOrder w = .eq → v.key? = w.key?)) ∧
    ∀ t : Table, t.Valid →
      (∀ name u, t.sort name false = .ok u → ∃ c, u.column? name = some c ∧
        c.values.Pairwise fun v w => w.compare .lt v ≠ .boolean true) ∧
      (∀ columns, (∀ c ∈ columns, c.NaNFree) → ∀ i j, i < t.rowCount → j < t.rowCount → i ≠ j →
        ((∃ rows ∈ t.rowClasses columns, i ∈ rows ∧ j ∈ rows) ↔ SameCells columns i j)) ∧
      ((∀ c ∈ t.columns, c.NaNFree) → t.distinctRows = t.takeRows
        ((List.range t.rowCount).filter fun j => ∀ i < j, ¬SameCells t.columns i j)) ∧
      ∀ p c, t.column? p.column = some c → c.NaNFree → p.op = .eq →
        t.filter p = .ok (t.takeRows (p.rowsOf c)) ∧
        ∀ i ∈ p.rowsOf c, ∀ j < t.rowCount, (j ∈ p.rowsOf c ↔ SameCells [c] i j) := by
  refine ⟨fun v w hv hw hvnan hwnan => ?_, fun t h => ⟨fun name u => h.sort_ascending,
    fun columns hnan i j => mem_same_group_iff hnan, distinctRows_eq_filter,
    fun p c hc hnan hop => ⟨filter_eq_ok hc, fun i hi j hj => ?_⟩⟩⟩
  · exact ⟨(holds_eq_iff_key? hv hw hvnan hwnan).symm.trans holds_iff,
      fun hless => sortOrder_of_holds_lt (holds_iff.mpr hless), key?_eq_of_sortOrder_eq⟩
  · exact mem_rowsOf_iff_sameCells hop hnan hi (h.lengths c (of_column?_eq_some hc).1 ▸ hj)

/-- Amounts, among them zeros of both signs and an error. -/
def amounts : Table :=
  ⟨[⟨"amount", .mixed, [.number 0.0, .text "nil", .number (-0.0), .missing, .error .divByZero]⟩], 5⟩

theorem equality_coherent_amounts : amounts.Valid ∧ (∀ c ∈ amounts.columns, c.NaNFree) ∧
    (number 0.0).key? = (number (-0.0)).key? ∧ (number 0.0).sortOrder (number (-0.0)) ≠ .eq ∧
    (∃ u c, amounts.sort "amount" false = .ok u ∧ u.column? "amount" = some c ∧
      c.values.Pairwise fun v w => w.compare .lt v ≠ .boolean true) ∧
    (∃ rows ∈ amounts.rowClasses amounts.columns, 0 ∈ rows ∧ 2 ∈ rows) ∧
    amounts.distinctRows = amounts.takeRows [0, 1, 3, 4] ∧
    amounts.filter ⟨"amount", .eq, "0", false⟩ = .ok (amounts.takeRows [0, 2]) := by
  have hvalid : amounts.Valid := by decide
  have hnan : ∀ c ∈ amounts.columns, c.NaNFree := by decide
  have hrows : Predicate.rowsOf ⟨"amount", .eq, "0", false⟩ amounts.columns[0] = [0, 2] := by
    decide +kernel
  obtain ⟨hvalues, htables⟩ := equality_coherent
  obtain ⟨hsort, hgroup, hdistinct, hfilter⟩ := htables amounts hvalid
  refine ⟨hvalid, hnan, (hvalues _ _ rfl rfl rfl rfl).1.mpr (by decide), by decide, ?_, ?_, ?_, ?_⟩
  · obtain ⟨c, hc, hpairwise⟩ := hsort "amount" _ rfl
    exact ⟨_, c, rfl, hc, hpairwise⟩
  · exact (hgroup amounts.columns hnan 0 2 (by decide) (by decide) (by decide)).mpr (by decide)
  · have hnew : ((List.range amounts.rowCount).filter fun j =>
        ∀ i < j, ¬SameCells amounts.columns i j) = [0, 1, 3, 4] := by decide
    exact hnew ▸ hdistinct hnan
  · exact hrows ▸ (hfilter ⟨"amount", .eq, "0", false⟩ amounts.columns[0] rfl (by decide) rfl).1

end Table

end Tabular
