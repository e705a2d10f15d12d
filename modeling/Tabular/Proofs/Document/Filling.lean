import Mathlib.Data.List.Induction
import Mathlib.Data.List.Nodup
import Tabular.Document.Table
import Tabular.Proofs.Table.Valid

/-!
# Filling rows

The columns of a list of objects are found while its rows are filled. A row holds in front of each name
found so far what its object has under that name, so that filling it up with missing cells gives the row
of all names, in whatever object and place they first occur.
-/
namespace Tabular.Document

section
variable {l : List String}

theorem eraseDups_concat (l : List String) (a : String) :
    (l ++ [a]).eraseDups = if a ∈ l then l.eraseDups else l.eraseDups ++ [a] := by
  rw [List.eraseDups_append, List.cons_removeAll, List.nil_removeAll]
  have hone : [a].eraseDups = [a] := List.eraseDups_cons
  by_cases ha : a ∈ l <;> simp [ha, hone]

/-- Of the elements of a list, the one that occurs first stands first. -/
theorem pairwise_eraseDups (l : List String) :
    l.eraseDups.Pairwise fun a b => l.idxOf a < l.idxOf b := by
  induction l using List.reverseRecOn with
  | nil => exact .nil
  | append_singleton l a ih =>
    have hfront : l.eraseDups.Pairwise fun b c => (l ++ [a]).idxOf b < (l ++ [a]).idxOf c := by
      refine ih.imp_of_mem fun hb hc h => ?_
      rwa [List.idxOf_append_of_mem (List.mem_eraseDups.mp hb),
        List.idxOf_append_of_mem (List.mem_eraseDups.mp hc)]
    rw [eraseDups_concat]
    split
    next => exact hfront
    next hnew =>
      refine List.pairwise_append.mpr ⟨hfront, List.pairwise_singleton .., ?_⟩
      intro b hb c hc
      have hb := List.mem_eraseDups.mp hb
      rw [List.mem_singleton.mp hc, List.idxOf_append_of_mem hb, List.idxOf_append_of_notMem hnew]
      exact Nat.lt_add_right _ (List.idxOf_lt_length_of_mem hb)

theorem nodup_eraseDups (l : List String) : l.eraseDups.Nodup := by
  refine (pairwise_eraseDups l).imp fun h heq => ?_
  rw [heq] at h
  exact Nat.lt_irrefl _ h

theorem eraseDups_of_nodup (h : l.Nodup) : l.eraseDups = l := by
  induction l using List.reverseRecOn with
  | nil => rfl
  | append_singleton l a ih =>
    have hnew : a ∉ l := fun ha => (List.nodup_append.mp h).2.2 a ha a (List.mem_singleton.mpr rfl) rfl
    rw [eraseDups_concat, if_neg hnew, ih (List.nodup_append.mp h).1]

theorem eraseDups_eraseDups_append (l m : List String) :
    (l.eraseDups ++ m).eraseDups = (l ++ m).eraseDups := by
  have hremove : m.removeAll l.eraseDups = m.removeAll l := by
    refine List.filter_congr fun a _ => ?_
    simp [List.elem_eq_contains]
  rw [List.eraseDups_append, List.eraseDups_append, eraseDups_of_nodup (nodup_eraseDups l), hremove]

end

/-- The cell that a row has under a name. -/
def cellUnder (cells : List (String × Value)) (name : String) : Value :=
  (cells.lookup name).getD .missing

variable {names : List String} {cells : List (String × Value)} {name : String}

theorem lookup_eq_none (h : name ∉ cells.map (·.1)) : cells.lookup name = none := by
  refine List.lookup_eq_none_iff.mpr fun cell hcell => bne_iff_ne.mpr ?_
  intro heq
  exact h (heq ▸ List.mem_map_of_mem hcell)

theorem cellUnder_of_not_mem (h : name ∉ cells.map (·.1)) : cellUnder cells name = .missing := by
  rw [cellUnder, lookup_eq_none h]
  rfl

theorem cellUnder_concat (h : name ∉ cells.map (·.1)) (v : Value) :
    cellUnder (cells ++ [(name, v)]) = Function.update (cellUnder cells) name v := by
  funext other
  rw [cellUnder, List.lookup_append]
  by_cases heq : other = name
  · rw [heq, lookup_eq_none h, Function.update_self, Option.none_or, List.lookup_cons_self]
    rfl
  · rw [List.lookup_cons, beq_false_of_ne heq, List.lookup_nil, Option.or_none, Function.update_of_ne heq]
    rfl

/-- A cell under a new name is put behind the others, one under a known name in the place of that name. -/
theorem place_eq (hnames : names.Nodup) (hnew : name ∉ cells.map (·.1)) (v : Value) :
    place (names, names.map (cellUnder cells)) (name, v) =
      ((names ++ [name]).eraseDups, (names ++ [name]).eraseDups.map (cellUnder (cells ++ [(name, v)]))) := by
  rw [eraseDups_concat, eraseDups_of_nodup hnames, cellUnder_concat hnew]
  by_cases hmem : name ∈ names
  · have hlt := List.idxOf_lt_length_of_mem hmem
    have hrow : ¬(names.map (cellUnder cells)).length ≤ names.idxOf name := by
      rw [List.length_map]
      exact Nat.not_le.mpr hlt
    rw [place, if_pos hlt, if_neg hrow, if_pos hmem, hnames.map_update, if_pos hmem]
  · have hend : names.idxOf name = names.length := List.idxOf_eq_length hmem
    have hother : names.map (Function.update (cellUnder cells) name v) = names.map (cellUnder cells) := by
      rw [hnames.map_update, if_neg hmem]
    rw [place, hend, if_neg (Nat.lt_irrefl _), if_neg hmem, List.map_append, hother,
      Table.resized_of_length_le (by simp)]
    simp

theorem foldl_place (hnames : names.Nodup) (hcells : (cells.map (·.1)).Nodup) :
    cells.foldl place (names, List.replicate names.length .missing) =
      ((names ++ cells.map (·.1)).eraseDups, (names ++ cells.map (·.1)).eraseDups.map (cellUnder cells)) := by
  induction cells using List.reverseRecOn with
  | nil =>
    rw [List.map_nil, List.append_nil, eraseDups_of_nodup hnames, ← List.map_const']
    rfl
  | append_singleton cells cell ih =>
    obtain ⟨name, v⟩ := cell
    rw [List.map_append] at hcells
    obtain ⟨hcells, -, hapart⟩ := List.nodup_append.mp hcells
    have hnew : name ∉ cells.map (·.1) := fun hmem => hapart name hmem name (List.mem_singleton.mpr rfl) rfl
    rw [List.foldl_concat, ih hcells, place_eq (nodup_eraseDups _) hnew, eraseDups_eraseDups_append,
      List.map_append, List.append_assoc]
    rfl

/-- The names of all fields, row by row. -/
def namesIn {α : Type} (rows : List (List (String × α))) : List String :=
  rows.flatMap fun fields => fields.map (·.1)

/-- All names in the order in which they first occur. -/
def unionNames {α : Type} (rows : List (List (String × α))) : List String := (namesIn rows).eraseDups

theorem mem_unionNames {α : Type} {rows : List (List (String × α))} :
    name ∈ unionNames rows ↔ ∃ fields ∈ rows, name ∈ fields.map (·.1) := by
  rw [unionNames, List.mem_eraseDups, namesIn, List.mem_flatMap]

/-- A row is filled up with missing cells in front of the names that it does not have. -/
theorem resized_cellUnder {later : List String} (h : ∀ name ∈ later, name ∉ cells.map (·.1)) :
    Table.resized (names.map (cellUnder cells)) (names ++ later).length =
      (names ++ later).map (cellUnder cells) := by
  have hmissing : later.map (cellUnder cells) = List.replicate later.length .missing := by
    rw [← List.map_const']
    exact List.map_congr_left fun name hname => cellUnder_of_not_mem (h name hname)
  rw [List.map_append, hmissing, Table.resized_of_length_le (by simp), List.length_map,
    List.length_append, Nat.add_sub_cancel_left]

theorem fillRows_cons (hnames : names.Nodup) (hcells : (cells.map (·.1)).Nodup)
    (rest : List (List (String × Value))) :
    fillRows names (cells :: rest) =
      let found := (names ++ cells.map (·.1)).eraseDups
      ((fillRows found rest).1, found.map (cellUnder cells) :: (fillRows found rest).2) := by
  rw [fillRows, foldl_place hnames hcells]

theorem fillRows_eq {rows : List (List (String × Value))} (hnames : names.Nodup)
    (hrows : ∀ cells ∈ rows, (cells.map (·.1)).Nodup) :
    (fillRows names rows).1 = (names ++ namesIn rows).eraseDups ∧
      (fillRows names rows).2.map (Table.resized · (fillRows names rows).1.length) =
        rows.map fun cells => (fillRows names rows).1.map (cellUnder cells) := by
  induction rows generalizing names with
  | nil =>
    rw [fillRows, namesIn, List.flatMap_nil, List.append_nil, eraseDups_of_nodup hnames]
    exact ⟨rfl, rfl⟩
  | cons cells rest ih =>
    obtain ⟨hcells, hrest⟩ := List.forall_mem_cons.mp hrows
    rw [fillRows_cons hnames hcells]
    generalize hfound : (names ++ cells.map (·.1)).eraseDups = found
    have hnodup : found.Nodup := hfound ▸ nodup_eraseDups _
    obtain ⟨hall, hresized⟩ := ih hnodup hrest
    constructor
    · rw [hall, ← hfound, eraseDups_eraseDups_append, List.append_assoc]
      rfl
    · have hlater : (fillRows found rest).1 = found ++ ((namesIn rest).removeAll found).eraseDups := by
        rw [hall, List.eraseDups_append, eraseDups_of_nodup hnodup]
      rw [List.map_cons, List.map_cons, hresized]
      refine congrArg (· :: _) ?_
      rw [hlater]
      apply resized_cellUnder
      intro name hname hmem
      have hnew : name ∉ found := by
        simpa using (List.mem_filter.mp (List.mem_eraseDups.mp hname)).2
      apply hnew
      rw [← hfound]
      exact List.mem_eraseDups.mpr (List.mem_append_right _ hmem)

/-- The table of a list of objects has a column for each name that occurs, and in the row of an object
the cell that it has under that name. -/
theorem toTable_of_toCells {items : List Document} {rows : List (List (String × Value))}
    (h : (items.zipIdx.mapM fun (d, i) => d.toCells i) = .ok rows)
    (hrows : ∀ cells ∈ rows, (cells.map (·.1)).Nodup) :
    toTable (list items) =
      Table.ofRows (unionNames rows) (rows.map fun cells => (unionNames rows).map (cellUnder cells)) := by
  obtain ⟨hnames, hfilled⟩ := fillRows_eq List.nodup_nil hrows
  rw [List.nil_append] at hnames
  rw [toTable, h]
  simp only [bind, Except.bind]
  rw [hfilled, hnames]
  rfl

end Tabular.Document
