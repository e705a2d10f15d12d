import Tabular.Proofs.Outcome
import Tabular.Proofs.Table.Cut
import Tabular.Proofs.Table.Transpose
import Tabular.Step

/-!
# Steps keep tables valid

Every step makes a valid table of a valid one or fails, and so does every run of steps. No step
fails because a value does not fit a column's type, and only a renaming, or a grouping that names a
key twice, fails because columns do not make a table.
-/
namespace Tabular

/-- The error says that a value does not fit the type of its column. -/
def Error.IsMismatch : Error → Prop
  | .typeMismatch .. => True
  | _ => False

/-- The error says that columns do not make a table, or a value does not fit its column. -/
def Error.IsShape : Error → Prop
  | .schema _ => True
  | .typeMismatch .. => True
  | _ => False

theorem Error.not_isShape_argument (fault : ArgumentFault) : ¬(argument fault).IsShape := id

theorem Error.not_isShape_reference (fault : AddressFault) : ¬(reference fault).IsShape := id

theorem Error.IsMismatch.isShape {e : Error} (h : e.IsMismatch) : e.IsShape := by
  cases e <;> first | exact h | exact h.elim

namespace Table

variable {t : Table}

theorem require_yields (t : Table) (name : String) :
    Yields Error.IsShape (fun c => c ∈ t.columns ∧ c.name = name) (t.require name) := by
  unfold require
  split
  next c hc => exact .ok ⟨List.mem_of_find?_eq_some hc, by simpa using List.find?_some hc⟩
  next => exact .error id

theorem requireAll_yields (t : Table) (names : List String) :
    Yields Error.IsShape (fun _ => True) (t.requireAll names) :=
  Yields.forM (fun name => (t.require_yields name).discard) names

theorem ofColumns_yields {columns : List Column} (htyped : ∀ c ∈ columns, c.Typed) :
    Yields Error.IsMismatch Valid (ofColumns columns) := by
  cases h : ofColumns columns with
  | ok t => exact .ok (ofColumns_valid htyped h)
  | error e =>
    simp only [ofColumns] at h
    split at h <;> cases h
    exact .error id

theorem ofColumns_yields_of_fits {n : Nat} {columns : List Column}
    (hfits : ∀ c ∈ columns, c.Fits n) (hnames : (columns.map (·.name)).Nodup) :
    Yields Error.IsShape Valid (ofColumns columns) := by
  obtain ⟨t, hok, hvalid⟩ := ofColumns_of_fits hfits hnames
  rw [hok]
  exact .ok hvalid

theorem Valid.sort_yields (h : t.Valid) (column : String) (descending : Bool) :
    Yields Error.IsShape Valid (t.sort column descending) :=
  (t.require_yields column).bind fun _ hc => .ok (h.takeRows_of_mem hc.1 _)

theorem Valid.filter_yields (h : t.Valid) (p : Predicate) :
    Yields Error.IsShape Valid (t.filter p) :=
  (t.require_yields p.column).bind fun _ hc => .ok (h.takeRows_of_mem hc.1 _)

theorem Valid.distinctRows_valid (h : t.Valid) : t.distinctRows.Valid := by
  refine h.takeRows fun hnil => ?_
  simp [h.noColumns hnil, unseen]

theorem Valid.head_valid (h : t.Valid) (n : Nat) : (t.head n).Valid :=
  h.takeRows fun hnil => by simp [h.noColumns hnil]

theorem Valid.tail_valid (h : t.Valid) (n : Nat) : (t.tail n).Valid :=
  h.takeRows fun hnil => by simp [h.noColumns hnil]

theorem Valid.dropMissing_yields (h : t.Valid) (columns : List String) :
    Yields Error.IsShape Valid (t.dropMissing columns) := by
  refine (t.requireAll_yields columns).bind fun _ _ => .ok (h.takeRows fun hnil => ?_)
  simp [h.noColumns hnil]

theorem columnsNamed_yields (t : Table) (seen names : List String) :
    Yields Error.IsShape (fun cs => (∀ c ∈ cs, c ∈ t.columns ∧ c.name ∉ seen) ∧
      (cs.map (·.name)).Nodup) (t.columnsNamed seen names) := by
  induction names generalizing seen with
  | nil => exact .ok ⟨nofun, .nil⟩
  | cons name rest ih =>
    rw [columnsNamed]
    refine Yields.check (Error.not_isShape_argument _) fun hseen => ?_
    refine (t.require_yields name).bind fun c hc => ?_
    refine (ih (name :: seen)).bind fun cs hcs => ?_
    obtain ⟨hmem, hnodup⟩ := hcs
    obtain ⟨hc, rfl⟩ := hc
    refine .ok ⟨?_, ?_⟩
    · intro d hd
      obtain rfl | hd := List.mem_cons.mp hd
      · exact ⟨hc, hseen⟩
      · exact ⟨(hmem d hd).1, fun h => (hmem d hd).2 (List.mem_cons_of_mem _ h)⟩
    · refine List.nodup_cons.mpr ⟨fun hin => ?_, hnodup⟩
      obtain ⟨d, hd, hname⟩ := List.mem_map.mp hin
      exact (hmem d hd).2 (hname ▸ List.mem_cons_self)

theorem Valid.select_yields (h : t.Valid) (names : List String) :
    Yields Error.IsShape Valid (t.select names) :=
  (t.columnsNamed_yields [] names).bind fun _ hcs =>
    ofColumns_yields_of_fits (fun c hc => h.fits (hcs.1 c hc).1) hcs.2

theorem Valid.drop_yields (h : t.Valid) (names : List String) :
    Yields Error.IsShape Valid (t.drop names) := by
  refine (t.requireAll_yields names).bind fun _ _ =>
    Yields.check (Error.not_isShape_argument _) fun _ => ?_
  exact ofColumns_yields_of_fits (fun c hc => h.fits (List.mem_of_mem_filter hc))
    (h.names.sublist (List.filter_sublist.map _))

theorem Valid.slice_yields (h : t.Valid) (range : String) :
    Yields Error.IsShape Valid (t.slice range) := by
  refine (Yields.mapError _ Error.not_isShape_reference).bind fun r _ => ?_
  have hsublist := (t.takeRows (t.rowIndices r)).columnsIn_sublist r
  refine ofColumns_yields_of_fits (n := (t.rowIndices r).length) (fun c hc => ?_) ?_
  · obtain ⟨source, hsource, rfl⟩ := List.mem_map.mp (hsublist.subset hc)
    exact (h.fits hsource).typed.takeRows_fits _
  · have hnames : (t.takeRows (t.rowIndices r)).names.Nodup := names_takeRows t _ ▸ h.names
    exact hnames.sublist (hsublist.map _)

theorem rename_typed {columns : List Column} (h : ∀ c ∈ columns, c.Typed) (names : List String) :
    ∀ c ∈ columns.zipWith Column.rename names, c.Typed := by
  intro c hc
  rw [← List.map_uncurry_zip_eq_zipWith] at hc
  obtain ⟨⟨source, name⟩, hmem, rfl⟩ := List.mem_map.mp hc
  exact h source (List.of_mem_zip hmem).1

theorem Valid.rename_yields (h : t.Valid) (changes : List (String × String)) :
    Yields Error.IsMismatch Valid (t.rename changes) := by
  have hnames : Yields Error.IsMismatch (fun _ => True) (changes.foldlM t.renameIn t.names) := by
    refine Yields.foldlM (fun names change _ => ?_) trivial changes
    refine Yields.bind (P := fun _ => True) ?_ fun i _ => Yields.check id fun _ => .ok trivial
    unfold requireIndex
    split
    · exact .ok trivial
    · exact .error id
  exact hnames.bind fun names _ =>
    ofColumns_yields (rename_typed (fun c hc => (h.fits hc).typed) names)

theorem Valid.mapCells_yields (h : t.Valid) (names : List String) (change : Column → Value → Value) :
    Yields Error.IsShape Valid (t.mapCells names change) := by
  refine (t.requireAll_yields names).bind fun _ _ => ?_
  refine ofColumns_yields_of_fits (n := t.rowCount) (fun c hc => ?_) ?_
  · obtain ⟨source, hsource, rfl⟩ := List.mem_map.mp hc
    split
    · have hfits := Column.ofValues_fits source.name (source.values.map (change source))
      rwa [List.length_map, (h.fits hsource).length] at hfits
    · exact h.fits hsource
  · convert h.names using 1
    rw [Table.names, List.map_map]
    refine List.map_congr_left fun c _ => ?_
    dsimp only [Function.comp_apply]
    split <;> rfl

theorem Valid.fillMissing_yields (h : t.Valid) (fill : String) (names : List String) :
    Yields Error.IsShape Valid (t.fillMissing fill names) := by
  rw [fillMissing]
  exact Yields.check (Error.not_isShape_argument _) fun _ => h.mapCells_yields names _

theorem Valid.replace_yields (h : t.Valid) (find replacement : String) (column : Option String) :
    Yields Error.IsShape Valid (t.replace find replacement column) := by
  rw [replace]
  exact Yields.check (Error.not_isShape_argument _) fun _ => h.mapCells_yields _ _

theorem Valid.applyFormula_yields (h : t.Valid) (formula target : String) :
    Yields Error.IsShape Valid (t.applyFormula formula target) := by
  rw [applyFormula]
  refine (Yields.mapError _ Error.not_isShape_reference).bind fun a _ => ?_
  refine Yields.check (Error.not_isShape_reference _) fun _ => ?_
  exact (Yields.mapError _ fun _ => id).bind fun e _ => .ok (h.setCell _ _ _)

theorem transpose_yields (t : Table) : Yields Error.IsShape Valid t.transpose := by
  rw [transpose_eq_ok]
  exact .ok (.of_fits t.sideways_fits t.nodup_names_sideways fun hnil =>
    absurd hnil (List.cons_ne_nil _ _))

theorem uniqueValues_yields (t : Table) (column : String) :
    Yields Error.IsShape Valid (t.uniqueValues column) := by
  refine (t.require_yields column).bind fun c _ => ?_
  refine ofColumns_yields_of_fits (n := (c.tally.map (·.1)).length) (fun d hd => ?_)
    (List.nodup_singleton _)
  rw [List.mem_singleton.mp hd]
  exact Column.ofValues_fits _ _

theorem valueCounts_yields (t : Table) (column : String) :
    Yields Error.IsShape Valid (t.valueCounts column) := by
  refine (t.require_yields column).bind fun c _ => ?_
  refine ofColumns_yields_of_fits (n := c.tally.length) (fun d hd => ?_) ?_
  · rw [List.mem_cons, List.mem_singleton] at hd
    obtain rfl | rfl := hd
    all_goals exact ⟨by simp [Column.ofValues], Column.ofValues_typed _ _⟩
  · exact List.nodup_cons.mpr
      ⟨mt List.mem_singleton.mp (freshName_ne "count" c.name).symm, List.nodup_singleton _⟩

theorem keyColumns_fits (groups : List (List Nat)) (sources : List Column) :
    ∀ c ∈ sources.map (keyColumn groups), c.Fits groups.length := by
  intro c hc
  obtain ⟨source, -, rfl⟩ := List.mem_map.mp hc
  exact ⟨by simp [keyColumn, Column.ofValues], Column.ofValues_typed _ _⟩

theorem names_keyColumns (groups : List (List Nat)) (sources : List Column) :
    (sources.map (keyColumn groups)).map (·.name) = sources.map (·.name) := List.map_map

theorem addAggregates_fits {groups : List (List Nat)} {columns : List Column}
    (h : ∀ c ∈ columns, c.Fits groups.length) (aggregates : List (Aggregation × Column)) :
    ∀ c ∈ addAggregates groups columns aggregates, c.Fits groups.length := by
  induction aggregates generalizing columns with
  | nil => exact h
  | cons aggregate rest ih =>
    refine ih fun c hc => ?_
    obtain hc | hc := List.mem_append.mp hc
    · exact h c hc
    · rw [List.mem_singleton.mp hc]
      exact ⟨by simp [Column.ofValues, aggregateValues], Column.ofValues_typed _ _⟩

theorem nodup_addAggregates {groups : List (List Nat)} {columns : List Column}
    (h : (columns.map (·.name)).Nodup) (aggregates : List (Aggregation × Column)) :
    ((addAggregates groups columns aggregates).map (·.name)).Nodup := by
  induction aggregates generalizing columns with
  | nil => exact h
  | cons aggregate rest ih => exact ih (nodup_append_freshName h rfl)

/-- A grouping makes a table of columns that fit its groups, with different names if the keys
differ. -/
theorem groupBy_yields {bad : Error → Prop} (t : Table) {keys : List String}
    (hbad : ∀ e, bad e → e.IsShape)
    (hmake : ∀ n columns, (∀ c ∈ columns, c.Fits n) →
      (keys.Nodup → (columns.map Column.name).Nodup) → Yields bad Valid (ofColumns columns))
    (aggregations : List Aggregation) : Yields bad Valid (t.groupBy keys aggregations) := by
  rw [groupBy]
  refine Yields.check (fun he => Error.not_isShape_argument _ (hbad _ he)) fun _ => ?_
  have hkeys := Yields.mapM t.require_yields keys
  refine (hkeys.mono hbad).bind fun keyColumns hkeyColumns => ?_
  have hsources := Yields.mapM (fun a : Aggregation => t.require_yields a.column) aggregations
  refine (hsources.mono hbad).bind fun sources _ => ?_
  refine hmake _ _ (addAggregates_fits (keyColumns_fits _ _) _) fun hnodup =>
    nodup_addAggregates ?_ _
  have hnames : keys = keyColumns.map Column.name := by
    rw [← List.forall₂_eq_eq_eq, List.forall₂_map_right_iff]
    exact hkeyColumns.imp fun _ _ hc => hc.2.symm
  rw [names_keyColumns]
  exact hnames ▸ hnodup

end Table

namespace Step

/-- The step may ask for two columns of one name. -/
def MayClash : Step → Prop
  | rename _ => True
  | groupBy keys _ => ¬keys.Nodup
  | _ => False

theorem apply_yields {t : Table} (h : t.Valid) (step : Step) :
    Yields (fun e => e.IsMismatch ∨ e.IsShape ∧ ¬step.MayClash) Table.Valid (step.apply t) := by
  have hshape {x : Except Error Table} (hx : Yields Error.IsShape Table.Valid x) :
      Yields (fun e => e.IsMismatch ∨ e.IsShape ∧ ¬step.MayClash) Table.Valid x :=
    hx.mono fun e he => he.elim Error.IsMismatch.isShape (·.1)
  have hmismatch {x : Except Error Table} (hclash : step.MayClash)
      (hx : Yields Error.IsMismatch Table.Valid x) :
      Yields (fun e => e.IsMismatch ∨ e.IsShape ∧ ¬step.MayClash) Table.Valid x :=
    hx.mono fun e he => he.resolve_right fun hshaped => hshaped.2 hclash
  cases step with
  | sort column descending => exact hshape (h.sort_yields column descending)
  | filter p => exact hshape (h.filter_yields p)
  | dedupe => exact hshape (.ok h.distinctRows_valid)
  | transpose => exact hshape t.transpose_yields
  | select names => exact hshape (h.select_yields names)
  | head n => exact hshape (.ok (h.head_valid n))
  | tail n => exact hshape (.ok (h.tail_valid n))
  | groupBy keys aggregations =>
    refine t.groupBy_yields (fun e he => he.elim Error.IsMismatch.isShape (·.1))
      (fun n columns hfits hnodup => ?_) aggregations
    -- keys that repeat give columns of one name, but never a value that does not fit
    by_cases hkeys : keys.Nodup
    · exact hshape (Table.ofColumns_yields_of_fits hfits (hnodup hkeys))
    · exact hmismatch hkeys (Table.ofColumns_yields fun c hc => (hfits c hc).typed)
  | slice range => exact hshape (h.slice_yields range)
  | formula f target => exact hshape (h.applyFormula_yields f target)
  | fillMissing fill names => exact hshape (h.fillMissing_yields fill names)
  | dropMissing names => exact hshape (h.dropMissing_yields names)
  | rename changes => exact hmismatch trivial (h.rename_yields changes)
  | drop names => exact hshape (h.drop_yields names)
  | replace find replacement column => exact hshape (h.replace_yields find replacement column)
  | valueCounts column => exact hshape (t.valueCounts_yields column)
  | unique column => exact hshape (t.uniqueValues_yields column)

theorem run_yields {t : Table} (h : t.Valid) (steps : List Step) :
    Yields Error.IsMismatch Table.Valid (run t steps) :=
  Yields.foldlM (fun _ step ht => (apply_yields ht step).mono fun _ => .inl) h steps

/-- From a valid table every run that succeeds ends in a valid one, columns that make no table are
met by a renaming or by a grouping that names a key twice, and no step finds a value that does not
fit its column. -/
theorem run_keeps_valid {t : Table} (h : t.Valid) :
    (∀ steps t', run t steps = .ok t' → t'.Valid) ∧
    (∀ step fault, apply t step = .error (.schema fault) →
      (∃ changes, step = .rename changes) ∨
        ∃ keys aggregations, step = .groupBy keys aggregations ∧ ¬keys.Nodup) ∧
    ∀ step column type row value, apply t step ≠ .error (.typeMismatch column type row value) := by
  refine ⟨fun steps t' hrun => ?_, fun step fault happly => ?_,
    fun step column type row value happly => ?_⟩
  · have hyields := run_yields h steps
    rw [hrun] at hyields
    exact hyields.result
  · have hyields := apply_yields h step
    rw [happly] at hyields
    by_contra hstep
    refine hyields.not_bad (.inr ⟨trivial, fun hclash => hstep ?_⟩)
    cases step with
    | rename changes => exact .inl ⟨changes, rfl⟩
    | groupBy keys aggregations => exact .inr ⟨keys, aggregations, rfl, hclash⟩
    | _ => exact hclash.elim
  · have hyields := apply_yields h step
    rw [happly] at hyields
    exact hyields.not_bad (.inl trivial)

/-- A small table of text and of mixed values, one of them missing. -/
def pets : Table :=
  ⟨[⟨"pet", .text, [.text "cat", .text "dog", .text "cat"]⟩,
    ⟨"name", .mixed, [.text "Tom", .missing, .boolean true]⟩], 3⟩

theorem run_keeps_pets_valid :
    pets.Valid ∧
    (∃ t, run pets [.dropMissing [], .rename [("pet", "kind")], .transpose] = .ok t ∧
      t.Valid ∧ t.names = ["Column", "Row1", "Row2"]) ∧
    apply pets (.groupBy ["pet", "pet"] []) = .error (.schema (.duplicateName "pet")) ∧
    ¬["pet", "pet"].Nodup := by
  have hvalid : pets.Valid := by decide
  have hrun : run pets [.dropMissing [], .rename [("pet", "kind")], .transpose] = .ok
      ⟨[⟨"Column", .mixed, [.text "kind", .text "name"]⟩,
        ⟨"Row1", .mixed, [.text "cat", .text "Tom"]⟩,
        ⟨"Row2", .mixed, [.text "cat", .boolean true]⟩], 2⟩ := by decide
  have hgroup : apply pets (.groupBy ["pet", "pet"] []) =
      .error (.schema (.duplicateName "pet")) := by decide +kernel
  obtain ⟨hkeeps, hschema, -⟩ := run_keeps_valid hvalid
  refine ⟨hvalid, ⟨_, hrun, hkeeps _ _ hrun, rfl⟩, hgroup, ?_⟩
  obtain ⟨changes, hstep⟩ | ⟨keys, aggregations, hstep, hkeys⟩ := hschema _ _ hgroup
  · cases hstep
  · cases hstep
    exact hkeys

end Step

end Tabular
