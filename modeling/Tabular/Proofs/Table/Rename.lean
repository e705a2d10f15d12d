import Tabular.Proofs.Table.Columns

/-!
# Renaming columns

A renaming applies all its pairs to the names as they were, however new names and old ones coincide. It
succeeds if and only if its old names are there, no new name is blank and the names it ends with all
differ. The pairs turned around take it back, and pairs that only permute names always go through.
-/
namespace Tabular.Table

variable {t u : Table} {changes : List (String × String)} {name new : String}

/-- What a column is called after the changes. Where several are of one name, the last one counts. -/
def renamed (changes : List (String × String)) (name : String) : String :=
  (changes.reverse.lookup name).getD name

theorem renamed_concat (changes : List (String × String)) (change : String × String) :
    renamed (changes ++ [change]) = Function.update (renamed changes) change.1 change.2 := by
  funext name
  rw [renamed, List.reverse_append, List.reverse_singleton, List.singleton_append, List.lookup_cons,
    Function.update_apply]
  by_cases hname : name = change.1
  · simp [hname]
  · rw [if_neg hname, beq_eq_false_iff_ne.mpr hname, renamed]

theorem renamed_of_not_mem (h : name ∉ changes.map Prod.fst) : renamed changes name = name := by
  induction changes using List.reverseRecOn with
  | nil => rfl
  | append_singleton front change ih =>
    rw [List.map_append, List.mem_append, not_or] at h
    rw [renamed_concat, Function.update_of_ne (by simpa using h.2), ih h.1]

theorem renamed_of_mem (hnodup : (changes.map Prod.fst).Nodup) (h : (name, new) ∈ changes) :
    renamed changes name = new := by
  induction changes using List.reverseRecOn with
  | nil => cases h
  | append_singleton front change ih =>
    rw [List.map_append, List.nodup_append] at hnodup
    obtain ⟨hfront, -, hdisjoint⟩ := hnodup
    rw [renamed_concat]
    obtain hmem | hlast := List.mem_append.mp h
    · have hne : name ≠ change.1 :=
        hdisjoint _ (List.mem_map_of_mem hmem) _ (List.mem_singleton_self _)
      rw [Function.update_of_ne hne, ih hfront hmem]
    · rw [← List.mem_singleton.mp hlast, Function.update_self]

theorem map_renamed (hnodup : (changes.map Prod.fst).Nodup) :
    (changes.map Prod.fst).map (renamed changes) = changes.map Prod.snd := by
  rw [List.map_map]
  exact List.map_congr_left fun change hchange => renamed_of_mem hnodup hchange

/-- The order of the pairs does not matter. -/
theorem renamed_of_perm {changes' : List (String × String)} (hnodup : (changes.map Prod.fst).Nodup)
    (hperm : changes'.Perm changes) : renamed changes' = renamed changes := by
  have hfst := hperm.map Prod.fst
  funext name
  by_cases hmem : name ∈ changes.map Prod.fst
  · obtain ⟨change, hchange, rfl⟩ := List.mem_map.mp hmem
    rw [renamed_of_mem hnodup hchange,
      renamed_of_mem (hfst.nodup_iff.mpr hnodup) (hperm.mem_iff.mpr hchange)]
  · rw [renamed_of_not_mem hmem, renamed_of_not_mem (mt hfst.mem_iff.mp hmem)]

/-- If no two names end up the same, the pairs turned around lead back to the old names. -/
theorem renamed_swap {names : List String} (hnodup : (changes.map Prod.fst).Nodup)
    (hold : ∀ change ∈ changes, change.1 ∈ names) (hnames : (names.map (renamed changes)).Nodup)
    (hname : name ∈ names) : renamed (changes.map Prod.swap) (renamed changes name) = name := by
  have hinj := List.inj_on_of_nodup_map hnames
  have hfst : (changes.map Prod.swap).map Prod.fst = changes.map Prod.snd := List.map_map
  by_cases hmem : name ∈ changes.map Prod.fst
  · obtain ⟨change, hchange, rfl⟩ := List.mem_map.mp hmem
    have hnew : (changes.map Prod.snd).Nodup := by
      rw [← map_renamed hnodup, List.nodup_map_iff_inj_on hnodup]
      intro a ha b hb
      obtain ⟨change, hchange, rfl⟩ := List.mem_map.mp ha
      obtain ⟨change', hchange', rfl⟩ := List.mem_map.mp hb
      exact hinj (hold _ hchange) (hold _ hchange')
    rw [renamed_of_mem hnodup hchange]
    exact renamed_of_mem (hfst ▸ hnew) (List.mem_map_of_mem hchange)
  · -- a name that is kept is no new name, or two names would be it
    have hkept := renamed_of_not_mem hmem
    rw [hkept]
    refine renamed_of_not_mem fun hnew => hmem ?_
    obtain ⟨change, hchange, rfl⟩ := List.mem_map.mp (hfst ▸ hnew)
    have hsame := hinj hname (hold _ hchange) (hkept.trans (renamed_of_mem hnodup hchange).symm)
    exact hsame ▸ List.mem_map_of_mem hchange

/-- Pairs that permute their old names keep names different. -/
theorem nodup_map_renamed_of_perm {names : List String} (hnames : names.Nodup)
    (hnodup : (changes.map Prod.fst).Nodup)
    (hperm : (changes.map Prod.snd).Perm (changes.map Prod.fst)) :
    (names.map (renamed changes)).Nodup := by
  have hnew (name : String) : renamed changes name ∈ changes.map Prod.fst ↔
      name ∈ changes.map Prod.fst := by
    by_cases hmem : name ∈ changes.map Prod.fst
    · refine iff_of_true (hperm.mem_iff.mp ?_) hmem
      rw [← map_renamed hnodup]
      exact List.mem_map_of_mem hmem
    · rw [renamed_of_not_mem hmem]
  have hinj := List.inj_on_of_nodup_map (f := renamed changes)
    (map_renamed hnodup ▸ hperm.nodup_iff.mpr hnodup)
  refine (List.nodup_map_iff_inj_on hnames).mpr fun a _ b _ hab => ?_
  by_cases ha : a ∈ changes.map Prod.fst
  · exact hinj ha ((hnew b).mp (hab ▸ (hnew a).mpr ha)) hab
  · have hb : b ∉ changes.map Prod.fst := fun hb => ha ((hnew a).mp (hab ▸ (hnew b).mpr hb))
    rwa [renamed_of_not_mem ha, renamed_of_not_mem hb] at hab

theorem requireIndex_eq_ok {i : Nat} :
    t.requireIndex name = .ok i ↔ name ∈ t.names ∧ t.names.idxOf name = i := by
  have hindex : t.columnIndex? name = some i ↔ name ∈ t.names ∧ t.names.idxOf name = i := by
    rw [columnIndex?, List.findIdx?_eq_some_iff_findIdx_eq, ← List.idxOf_lt_length_iff, length_names,
      List.idxOf, names, List.findIdx_map]
    refine and_congr_left ?_
    rintro rfl
    rfl
  rw [← hindex, requireIndex]
  cases t.columnIndex? name <;> simp

theorem renameIn_eq_ok {names names' : List String} {change : String × String} :
    t.renameIn names change = .ok names' ↔ (change.1 ∈ t.names ∧ Text.trim change.2 ≠ "") ∧
      names' = names.set (t.names.idxOf change.1) change.2 := by
  rw [renameIn, bind_eq_ok]
  simp only [requireIndex_eq_ok]
  by_cases hblank : Text.trim change.2 = ""
  · simp only [if_pos hblank]
    refine iff_of_false ?_ fun h => h.1.2 hblank
    rintro ⟨i, -, hok⟩
    cases hok
  · simp only [if_neg hblank]
    constructor
    · rintro ⟨i, ⟨hold, rfl⟩, hok⟩
      exact ⟨⟨hold, hblank⟩, (Except.ok.inj hok).symm⟩
    · rintro ⟨⟨hold, -⟩, rfl⟩
      exact ⟨_, ⟨hold, rfl⟩, rfl⟩

/-- All changes go by the names as they were. -/
theorem Valid.foldlM_renameIn (h : t.Valid) {names : List String} :
    changes.foldlM t.renameIn t.names = .ok names ↔
      (∀ change ∈ changes, change.1 ∈ t.names ∧ Text.trim change.2 ≠ "") ∧
        names = t.names.map (renamed changes) := by
  induction changes using List.reverseRecOn generalizing names with
  | nil =>
    have hsame : t.names.map (renamed []) = t.names := List.map_id _
    rw [hsame, and_iff_right nofun, eq_comm (a := names), List.foldlM_nil]
    exact iff_of_eq (Except.ok.injEq ..)
  | append_singleton front change ih =>
    rw [List.foldlM_append, bind_eq_ok, renamed_concat, h.names.map_update, List.forall_mem_append,
      List.forall_mem_singleton]
    simp only [ih, List.foldlM_cons, List.foldlM_nil, bind_pure, renameIn_eq_ok]
    constructor
    · rintro ⟨_, ⟨hfront, rfl⟩, hchange, rfl⟩
      exact ⟨⟨hfront, hchange⟩, (if_pos hchange.1).symm⟩
    · rintro ⟨⟨hfront, hchange⟩, rfl⟩
      exact ⟨_, ⟨hfront, rfl⟩, hchange, if_pos hchange.1⟩

def relabelled (t : Table) (f : String → String) : Table :=
  ⟨t.columns.map fun c => c.rename (f c.name), t.rowCount⟩

@[simp] theorem names_relabelled (t : Table) (f : String → String) :
    (t.relabelled f).names = t.names.map f := by
  simp only [names, relabelled, List.map_map]
  rfl

theorem relabelled_relabelled (t : Table) (f g : String → String) :
    (t.relabelled f).relabelled g = t.relabelled (g ∘ f) := by
  simp only [relabelled, List.map_map]
  rfl

theorem relabelled_of_forall_eq {f : String → String} (h : ∀ name ∈ t.names, f name = name) :
    t.relabelled f = t := by
  have hcolumns : t.columns.map (fun c => c.rename (f c.name)) = t.columns.map id :=
    List.map_congr_left fun c hc => by rw [h c.name (List.mem_map_of_mem hc)]; rfl
  rw [relabelled, hcolumns, List.map_id]

/-- When a renaming succeeds, and with which table. -/
theorem Valid.rename_eq_ok (h : t.Valid) : t.rename changes = .ok u ↔
    (∀ change ∈ changes, change.1 ∈ t.names ∧ Text.trim change.2 ≠ "") ∧
      (t.names.map (renamed changes)).Nodup ∧ u = t.relabelled (renamed changes) := by
  have hcolumns : t.columns.zipWith Column.rename (t.names.map (renamed changes)) =
      (t.relabelled (renamed changes)).columns := by
    rw [Table.names, List.map_map, List.zipWith_map_right, List.zipWith_self]
    rfl
  have hlengths : ∀ c ∈ (t.relabelled (renamed changes)).columns, c.values.length = t.rowCount := by
    intro c hc
    obtain ⟨source, hsource, rfl⟩ := List.mem_map.mp hc
    exact h.lengths source hsource
  have hempty (hnil : (t.relabelled (renamed changes)).columns = []) : t.rowCount = 0 :=
    h.noColumns (List.map_eq_nil_iff.mp hnil)
  have hok := ofColumns_eq_ok_iff (t := u) hlengths hempty
  rw [← Table.names, names_relabelled] at hok
  rw [rename, bind_eq_ok]
  simp only [h.foldlM_renameIn]
  constructor
  · rintro ⟨names, ⟨hchanges, rfl⟩, hu⟩
    rw [hcolumns] at hu
    exact ⟨hchanges, hok.mp hu⟩
  · rintro ⟨hchanges, hu⟩
    refine ⟨_, ⟨hchanges, rfl⟩, ?_⟩
    rw [hcolumns]
    exact hok.mpr hu

theorem Valid.relabelled (h : t.Valid) {f : String → String} (hnames : (t.names.map f).Nodup) :
    (t.relabelled f).Valid where
  lengths := fun c hc => by
    obtain ⟨source, hsource, rfl⟩ := List.mem_map.mp hc
    exact h.lengths source hsource
  names := names_relabelled t f ▸ hnames
  types := fun c hc => by
    obtain ⟨source, hsource, rfl⟩ := List.mem_map.mp hc
    exact h.types source hsource
  noColumns := fun hnil => h.noColumns (List.map_eq_nil_iff.mp hnil)

/-- The pairs turned around take a renaming back. -/
theorem Valid.rename_swap (h : t.Valid) (hnodup : (changes.map Prod.fst).Nodup)
    (hblank : ∀ change ∈ changes, Text.trim change.1 ≠ "") (hu : t.rename changes = .ok u) :
    u.rename (changes.map Prod.swap) = .ok t := by
  obtain ⟨hchanges, hnames, rfl⟩ := h.rename_eq_ok.mp hu
  have hback : ∀ name ∈ t.names, (renamed (changes.map Prod.swap) ∘ renamed changes) name = name :=
    fun name => renamed_swap hnodup (fun change hchange => (hchanges change hchange).1) hnames
  refine (h.relabelled hnames).rename_eq_ok.mpr ⟨fun back hmem => ?_, ?_, ?_⟩
  · obtain ⟨change, hchange, rfl⟩ := List.mem_map.mp hmem
    refine ⟨?_, hblank change hchange⟩
    rw [names_relabelled, Prod.fst_swap, ← renamed_of_mem hnodup hchange]
    exact List.mem_map_of_mem (hchanges change hchange).1
  · rw [names_relabelled, List.map_map, List.map_congr_left hback, List.map_id']
    exact h.names
  · rw [relabelled_relabelled, relabelled_of_forall_eq hback]

/-- Pairs of different old names that are there rename every column by the name it had, in whatever
order they are given. They succeed if and only if no new name is blank and the names that come out all
differ, which those do that are only permuted. The pairs turned around lead back to the table, unless an
old name is blank. -/
theorem Valid.rename_substitutes (h : t.Valid) (hnodup : (changes.map Prod.fst).Nodup)
    (hold : ∀ change ∈ changes, change.1 ∈ t.names) :
    (∀ change ∈ changes, renamed changes change.1 = change.2) ∧
    (∀ name ∉ changes.map Prod.fst, renamed changes name = name) ∧
    ((∃ u, t.rename changes = .ok u) ↔ (∀ change ∈ changes, Text.trim change.2 ≠ "") ∧
      (t.names.map (renamed changes)).Nodup) ∧
    (∀ u, t.rename changes = .ok u → u = t.relabelled (renamed changes) ∧
      ((∀ change ∈ changes, Text.trim change.1 ≠ "") →
        u.rename (changes.map Prod.swap) = .ok t)) ∧
    ((changes.map Prod.snd).Perm (changes.map Prod.fst) →
      (∀ change ∈ changes, Text.trim change.2 ≠ "") → ∃ u, t.rename changes = .ok u) ∧
    ∀ changes', changes'.Perm changes → ∀ u, t.rename changes' = .ok u ↔ t.rename changes = .ok u := by
  have hsuccess : (∃ u, t.rename changes = .ok u) ↔ (∀ change ∈ changes, Text.trim change.2 ≠ "") ∧
      (t.names.map (renamed changes)).Nodup := by
    simp only [h.rename_eq_ok]
    constructor
    · rintro ⟨u, hchanges, hnames, -⟩
      exact ⟨fun change hchange => (hchanges change hchange).2, hnames⟩
    · rintro ⟨hnew, hnames⟩
      exact ⟨_, fun change hchange => ⟨hold change hchange, hnew change hchange⟩, hnames, rfl⟩
  refine ⟨fun change hchange => renamed_of_mem hnodup hchange, fun name => renamed_of_not_mem,
    hsuccess, fun u hu => ?_, fun hperm hnew => ?_, fun changes' hperm u => ?_⟩
  · exact ⟨(h.rename_eq_ok.mp hu).2.2, fun hblank => h.rename_swap hnodup hblank hu⟩
  · exact hsuccess.mpr ⟨hnew, nodup_map_renamed_of_perm h.names hnodup hperm⟩
  · rw [h.rename_eq_ok, h.rename_eq_ok, renamed_of_perm hnodup hperm]
    simp only [hperm.mem_iff]

def circle : Table := ⟨[⟨"a", .number, [.number 1.0]⟩, ⟨"b", .text, [.text "x"]⟩,
  ⟨"c", .boolean, [.boolean true]⟩, ⟨"d", .mixed, [.missing]⟩], 1⟩

theorem rename_substitutes_circle : circle.Valid ∧
    (∃ u, circle.rename [("a", "b"), ("b", "c"), ("c", "a")] = .ok u ∧
      u.names = ["b", "c", "a", "d"] ∧ u.rename [("b", "a"), ("c", "b"), ("a", "c")] = .ok circle) ∧
    ¬∃ u, circle.rename [("a", "b"), ("b", "d")] = .ok u := by
  have hvalid : circle.Valid := by decide
  obtain ⟨-, -, -, hback, hcircle, -⟩ := @Valid.rename_substitutes circle
    [("a", "b"), ("b", "c"), ("c", "a")] hvalid (by decide) (by decide)
  obtain ⟨-, -, hclash, -⟩ := @Valid.rename_substitutes circle
    [("a", "b"), ("b", "d")] hvalid (by decide) (by decide)
  obtain ⟨u, hu⟩ := hcircle (by decide) (by decide)
  obtain ⟨rfl, hback⟩ := hback u hu
  exact ⟨hvalid, ⟨_, hu, by decide, hback (by decide)⟩, fun h => absurd (hclash.mp h).2 (by decide)⟩

end Tabular.Table
