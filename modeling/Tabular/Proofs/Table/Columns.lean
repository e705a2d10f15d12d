import Tabular.Proofs.Outcome
import Tabular.Proofs.Table.Valid
import Tabular.Table.Columns

/-!
# Columns by name

Names that are there are found, each with its column, and in a valid table the name of a column leads
to this column. To select columns by their names is to take these columns, in the order of the names.
-/
namespace Tabular.Table

variable {t u : Table} {names : List String}

theorem of_column?_eq_some {name : String} {c : Column} (h : t.column? name = some c) :
    c ∈ t.columns ∧ c.name = name :=
  ⟨List.mem_of_find?_eq_some h, by simpa using List.find?_some h⟩

theorem exists_column?_of_mem_names {name : String} (h : name ∈ t.names) :
    ∃ c, t.column? name = some c := by
  obtain ⟨c, hc, hname⟩ := List.mem_map.mp h
  exact Option.isSome_iff_exists.mp (List.find?_isSome.mpr ⟨c, hc, by simpa using hname⟩)

theorem require_eq_ok {name : String} {c : Column} :
    t.require name = .ok c ↔ t.column? name = some c := by
  rw [require]
  cases t.column? name <;> simp

/-- Names that are there are found, each with its column. -/
theorem mapM_require (h : ∀ name ∈ names, name ∈ t.names) :
    names.mapM t.require = .ok (names.filterMap t.column?) ∧
    List.Forall₂ (fun name c => t.column? name = some c) names (names.filterMap t.column?) := by
  induction names with
  | nil => exact ⟨rfl, .nil⟩
  | cons name rest ih =>
    obtain ⟨hname, hrest⟩ := List.forall_mem_cons.mp h
    obtain ⟨c, hc⟩ := exists_column?_of_mem_names hname
    obtain ⟨hok, hcolumns⟩ := ih hrest
    rw [List.mapM_cons, List.filterMap_cons_some hc, require, hc, hok]
    exact ⟨rfl, .cons hc hcolumns⟩

theorem names_filterMap_column? (h : ∀ name ∈ names, name ∈ t.names) :
    (names.filterMap t.column?).map (·.name) = names := by
  rw [eq_comm, ← List.forall₂_eq_eq_eq, List.forall₂_map_right_iff]
  exact (mapM_require h).2.imp fun _ _ hc => (of_column?_eq_some hc).2.symm

/-- In a valid table the name of a column leads to the column. -/
theorem Valid.column?_name (h : t.Valid) {c : Column} (hc : c ∈ t.columns) :
    t.column? c.name = some c := by
  obtain ⟨d, hd⟩ := exists_column?_of_mem_names (List.mem_map_of_mem hc)
  obtain ⟨hmem, hname⟩ := of_column?_eq_some hd
  rwa [List.inj_on_of_nodup_map h.names hmem hc hname] at hd

theorem Valid.filterMap_column? (h : t.Valid) {columns : List Column}
    (hsubset : ∀ c ∈ columns, c ∈ t.columns) :
    (columns.map (·.name)).filterMap t.column? = columns := by
  rw [List.filterMap_map]
  exact (List.filterMap_congr fun c hc => h.column?_name (hsubset c hc)).trans List.filterMap_some

theorem columnsNamed_cons_eq_ok {seen : List String} {name : String} {columns : List Column} :
    t.columnsNamed seen (name :: names) = .ok columns ↔ name ∉ seen ∧ ∃ c others,
      t.column? name = some c ∧ t.columnsNamed (name :: seen) names = .ok others ∧
        columns = c :: others := by
  rw [columnsNamed]
  by_cases hseen : name ∈ seen
  · rw [if_pos hseen]
    refine iff_of_false (fun h => ?_) fun h => h.1 hseen
    cases h
  rw [if_neg hseen, and_iff_right hseen]
  refine bind_eq_ok.trans (exists_congr fun c => ?_)
  rw [require_eq_ok, bind_eq_ok, exists_and_left]
  refine and_congr_right fun _ => exists_congr fun others => and_congr_right fun _ => ?_
  rw [eq_comm (a := columns)]
  exact iff_of_eq (Except.ok.injEq ..)

theorem columnsNamed_eq_ok_iff {seen : List String} {columns : List Column} :
    t.columnsNamed seen names = .ok columns ↔ (∀ name ∈ names, name ∈ t.names) ∧
      (∀ name ∈ names, name ∉ seen) ∧ names.Nodup ∧ columns = names.filterMap t.column? := by
  induction names generalizing seen columns with
  | nil => simp [columnsNamed, eq_comm]
  | cons name rest ih =>
    simp only [columnsNamed_cons_eq_ok, ih, List.forall_mem_cons, List.nodup_cons]
    constructor
    · rintro ⟨hname, c, others, hc, ⟨hthere, hnew, hnodup, rfl⟩, rfl⟩
      obtain ⟨hmem, rfl⟩ := of_column?_eq_some hc
      refine ⟨⟨List.mem_map_of_mem hmem, hthere⟩, ⟨hname, fun other hother => ?_⟩,
        ⟨fun h => ?_, hnodup⟩, ?_⟩
      · exact fun hseen => hnew other hother (List.mem_cons_of_mem _ hseen)
      · exact hnew _ h List.mem_cons_self
      · rw [List.filterMap_cons_some hc]
    · rintro ⟨⟨hname, hthere⟩, ⟨hnew, hrest⟩, ⟨hfirst, hnodup⟩, rfl⟩
      obtain ⟨c, hc⟩ := exists_column?_of_mem_names hname
      refine ⟨hnew, c, _, hc, ⟨hthere, fun other hother => ?_, hnodup, rfl⟩,
        List.filterMap_cons_some hc⟩
      exact List.not_mem_cons_of_ne_of_not_mem (fun heq => hfirst (heq ▸ hother)) (hrest other hother)

theorem mem_of_mem_filterMap_column? {c : Column} (hc : c ∈ names.filterMap t.column?) :
    c ∈ t.columns := by
  obtain ⟨name, -, hname⟩ := List.mem_filterMap.mp hc
  exact (of_column?_eq_some hname).1

/-- When a selection succeeds, and with which table. -/
theorem Valid.select_eq_ok (h : t.Valid) : t.select names = .ok u ↔
    (∀ name ∈ names, name ∈ t.names) ∧ names.Nodup ∧
      u = ⟨names.filterMap t.column?, if names = [] then 0 else t.rowCount⟩ := by
  rw [select, bind_eq_ok]
  have hok (hthere : ∀ name ∈ names, name ∈ t.names) (hnodup : names.Nodup) :
      ofColumns (names.filterMap t.column?) = .ok u ↔
        u = ⟨names.filterMap t.column?, if names = [] then 0 else t.rowCount⟩ := by
    have hnames := names_filterMap_column? hthere
    refine (ofColumns_eq_ok_iff (fun c hc => ?_) fun hnil => ?_).trans
      (and_iff_right (hnames.symm ▸ hnodup))
    · have hne : names ≠ [] := by
        rintro rfl
        cases hc
      rw [if_neg hne]
      exact h.lengths c (mem_of_mem_filterMap_column? hc)
    · rw [hnil] at hnames
      exact if_pos hnames.symm
  simp only [columnsNamed_eq_ok_iff]
  constructor
  · rintro ⟨_, ⟨hthere, -, hnodup, rfl⟩, hu⟩
    exact ⟨hthere, hnodup, (hok hthere hnodup).mp hu⟩
  · rintro ⟨hthere, hnodup, hu⟩
    exact ⟨_, ⟨hthere, fun _ _ => List.not_mem_nil, hnodup, rfl⟩, (hok hthere hnodup).mpr hu⟩

/-- The names of some columns of a valid table, in any order, select these columns. -/
theorem Valid.select_names (h : t.Valid) {columns : List Column}
    (hsubset : ∀ c ∈ columns, c ∈ t.columns) (hnames : (columns.map (·.name)).Nodup) :
    t.select (columns.map (·.name)) = ofColumns columns := by
  have hnamed : t.columnsNamed [] (columns.map (·.name)) = .ok columns := columnsNamed_eq_ok_iff.mpr
    ⟨List.forall_mem_map.mpr fun c hc => List.mem_map_of_mem (hsubset c hc),
      fun _ _ => List.not_mem_nil, hnames, (h.filterMap_column? hsubset).symm⟩
  rw [select, hnamed]
  rfl

end Tabular.Table
