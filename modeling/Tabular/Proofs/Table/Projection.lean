import Tabular.Proofs.Table.Clean
import Tabular.Proofs.Table.Rename
import Tabular.Step

/-!
# Projections

Selecting, dropping and renaming columns make tables of columns of the table, with their types and their
values in the order of the rows. Their rows are kept as well, as long as there is a column left to keep
them: to drop every column is refused, but to select none is not, and it loses all rows.
-/
namespace Tabular

namespace Table

variable {t u : Table} {names : List String}

/-- When columns can be dropped, and which table is left. -/
theorem Valid.drop_eq_ok (h : t.Valid) : t.drop names = .ok u ↔
    (∀ name ∈ names, name ∈ t.names) ∧
      (t.columns.filter (·.name ∉ names) = [] → t.columns = []) ∧
      u = ⟨t.columns.filter (·.name ∉ names), t.rowCount⟩ := by
  have hnodup : ((t.columns.filter (·.name ∉ names)).map (·.name)).Nodup :=
    h.names.sublist (List.filter_sublist.map _)
  have hlengths : ∀ c ∈ t.columns.filter (·.name ∉ names), c.values.length = t.rowCount :=
    fun c hc => h.lengths c (List.mem_of_mem_filter hc)
  have hrequired : (names.forM fun name => discard (t.require name)) = .ok () ↔
      ∀ name ∈ names, name ∈ t.names := requireAll_eq_ok_iff
  rw [drop, bind_eq_ok]
  dsimp only
  generalize t.columns.filter (·.name ∉ names) = kept at hnodup hlengths ⊢
  by_cases hall : kept = [] ∧ t.columns ≠ []
  · simp only [if_pos hall]
    refine iff_of_false ?_ fun h => hall.2 (h.2.1 hall.1)
    rintro ⟨_, -, hu⟩
    cases hu
  · have hkept (hnil : kept = []) : t.columns = [] := by_contra fun hne => hall ⟨hnil, hne⟩
    simp only [if_neg hall, ofColumns_eq_ok_iff hlengths fun hnil => h.noColumns (hkept hnil)]
    constructor
    · rintro ⟨_, hthere, -, hu⟩
      exact ⟨hrequired.mp hthere, hkept, hu⟩
    · rintro ⟨hthere, -, hu⟩
      exact ⟨(), hrequired.mpr hthere, hnodup, hu⟩

theorem zipWith_rename_self (columns : List Column) :
    columns.zipWith Column.rename (columns.map (·.name)) = columns := by
  rw [List.zipWith_map_right, List.zipWith_self]
  exact List.map_id _

end Table

namespace Step

open Table

/-- The columns of a table that a projection keeps, and the names that they get. -/
def projection? (t : Table) : Step → Option (List Column × List String)
  | select names => some (names.filterMap t.column?, names)
  | drop names => some (t.columns.filter (·.name ∉ names), t.names.filter (· ∉ names))
  | rename changes => some (t.columns, t.names.map (renamed changes))
  | _ => none

/-- A projection makes a table of columns of the table, each under its name, and only the selection of
no column loses rows. -/
theorem apply_projection {t u : Table} {step : Step} {columns : List Column} {names : List String}
    (h : t.Valid) (hstep : step.projection? t = some (columns, names)) (hok : step.apply t = .ok u) :
    (∀ c ∈ columns, c ∈ t.columns) ∧ u.columns = columns.zipWith Column.rename names ∧
      u.names = names ∧ (u.rowCount = t.rowCount ↔ step = .select [] → t.rowCount = 0) := by
  cases step with
  | select chosen =>
    cases hstep
    obtain ⟨hthere, -, rfl⟩ := h.select_eq_ok.mp hok
    have hnames := names_filterMap_column? hthere
    refine ⟨fun c => mem_of_mem_filterMap_column?, ?_, hnames, ?_⟩
    · exact (hnames ▸ zipWith_rename_self _).symm
    · by_cases hnone : names = []
      · simp [hnone, eq_comm]
      · simp [hnone]
  | drop dropped =>
    cases hstep
    obtain ⟨-, -, rfl⟩ := h.drop_eq_ok.mp hok
    have hnames : t.names.filter (· ∉ dropped) = (t.columns.filter (·.name ∉ dropped)).map (·.name) :=
      List.filter_map
    refine ⟨fun c => List.mem_of_mem_filter, ?_, hnames.symm, iff_of_true rfl nofun⟩
    rw [hnames, zipWith_rename_self]
  | rename changes =>
    cases hstep
    obtain ⟨-, -, rfl⟩ := h.rename_eq_ok.mp hok
    refine ⟨fun c => id, ?_, names_relabelled t _, iff_of_true rfl nofun⟩
    rw [Table.names, List.map_map, List.zipWith_map_right, List.zipWith_self]
    rfl
  | _ => cases hstep

def stock : Table := ⟨[⟨"item", .text, [.text "nut", .text "bolt"]⟩,
  ⟨"count", .number, [.number 3.0, .number 5.0]⟩], 2⟩

theorem apply_projection_stock : stock.Valid ∧ ∃ u, apply stock (.select ["count", "item"]) = .ok u ∧
    u.names = ["count", "item"] ∧ u.rowCount = stock.rowCount := by
  have hvalid : stock.Valid := by decide
  have hok : apply stock (.select ["count", "item"]) =
      .ok ⟨[⟨"count", .number, [.number 3.0, .number 5.0]⟩,
        ⟨"item", .text, [.text "nut", .text "bolt"]⟩], 2⟩ := by decide +kernel
  obtain ⟨-, -, hnames, hrows⟩ := apply_projection hvalid rfl hok
  exact ⟨hvalid, _, hok, hnames, hrows.mpr nofun⟩

/-- To select no column succeeds, and no row is left. -/
theorem apply_select_nil_stock :
    stock.Valid ∧ ∃ u, apply stock (.select []) = .ok u ∧ u.rowCount ≠ stock.rowCount :=
  ⟨by decide, .empty, rfl, by decide⟩

end Step

end Tabular
