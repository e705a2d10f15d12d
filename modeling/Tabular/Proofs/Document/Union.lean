import Tabular.Proofs.Document.Distinct
import Tabular.Proofs.Document.Filling
import Tabular.Proofs.Outcome
import Tabular.Proofs.Table.Grid

/-!
# The union of all columns

A list of flat objects is read as the table whose columns are all names of their fields. Other documents
are refused, and no list of objects gives rows that make no table.
-/
namespace Tabular.Document

variable {cells : List (String × Value)} {name : String}

/-- The cell that a flat value stands for. -/
inductive Denotes : Document → Value → Prop
  | null : Denotes null .missing
  | boolean (b : Bool) : Denotes (boolean b) (.boolean b)
  | whole (n : Int) : Denotes (whole n) (.number (Float.ofInt n))
  | number {x : Float} (h : x.isFinite = true) : Denotes (number x) (.number x)
  | text (s : String) : Denotes (text s) (.text s)

/-- A value without parts: null, a boolean, a finite number or a text. -/
def Flat (d : Document) : Prop := ∃ v, Denotes d v

/-- A cell has the name of a field and what the field's value stands for. -/
def ShowsField (field : String × Document) (cell : String × Value) : Prop :=
  cell.1 = field.1 ∧ Denotes field.2 cell.2

theorem toCell_eq_ok_iff {d : Document} {v : Value} : toCell name d = .ok v ↔ Denotes d v := by
  constructor
  · intro h
    cases d with
    | number x =>
      rw [toCell] at h
      split at h
      next hx =>
        cases h
        exact .number hx
      next => cases h
    | list items => cases h
    | object fields => cases h
    | _ =>
      cases h
      constructor
  · intro h
    cases h with
    | number h => exact if_pos h
    | _ => rfl

theorem toCells_object_eq_ok_iff {fields : List (String × Document)} {index : Nat} :
    (object fields).toCells index = .ok cells ↔ List.Forall₂ ShowsField fields cells := by
  rw [toCells, mapM_eq_ok_iff]
  refine ⟨fun h => h.imp ?_, fun h => h.imp ?_⟩
  · intro field cell hcell
    obtain ⟨v, hv, hcell⟩ := bind_eq_ok.mp hcell
    cases hcell
    exact ⟨rfl, toCell_eq_ok_iff.mp hv⟩
  · intro field cell ⟨hname, hv⟩
    exact bind_eq_ok.mpr ⟨cell.2, toCell_eq_ok_iff.mpr hv, congrArg Except.ok (Prod.ext hname.symm rfl)⟩

theorem exists_toCells_iff {d : Document} {index : Nat} : (∃ cells, d.toCells index = .ok cells) ↔
    ∃ fields, d = object fields ∧ ∀ field ∈ fields, Flat field.2 := by
  cases d with
  | object fields =>
    have hfield (field : String × Document) :
        (∃ cell, (do return (field.1, ← toCell field.1 field.2) : Except Error _) = .ok cell) ↔
          Flat field.2 := by
      constructor
      · intro ⟨cell, h⟩
        obtain ⟨v, hv, -⟩ := bind_eq_ok.mp h
        exact ⟨v, toCell_eq_ok_iff.mp hv⟩
      · intro ⟨v, hv⟩
        exact ⟨(field.1, v), bind_eq_ok.mpr ⟨v, toCell_eq_ok_iff.mpr hv, rfl⟩⟩
    rw [toCells, exists_mapM_eq_ok_iff]
    constructor
    · intro h
      exact ⟨fields, rfl, fun field hmem => (hfield field).mp (h field hmem)⟩
    · intro ⟨_, heq, h⟩ field hmem
      cases heq
      exact (hfield field).mpr (h field hmem)
  | _ =>
    refine iff_of_false ?_ ?_
    · intro ⟨cells, h⟩
      cases h
    · intro ⟨fields, h, _⟩
      cases h

theorem exists_fault_of_toCell {d : Document} {e : Error} (h : toCell name d = .error e) :
    ∃ fault, e = .codec fault := by
  cases d with
  | number x =>
    rw [toCell] at h
    split at h
    next => cases h
    next =>
      cases h
      exact ⟨_, rfl⟩
  | list items =>
    cases h
    exact ⟨_, rfl⟩
  | object fields =>
    cases h
    exact ⟨_, rfl⟩
  | _ => cases h

theorem exists_fault_of_toCells {d : Document} {index : Nat} {e : Error}
    (h : d.toCells index = .error e) : ∃ fault, e = .codec fault := by
  cases d with
  | object fields =>
    obtain ⟨_, ⟨name, d⟩, _, -, -, hfield⟩ := mapM_eq_error_iff.mp h
    cases hcell : toCell name d with
    | ok v =>
      dsimp only at hfield
      rw [hcell] at hfield
      cases hfield
    | error e' =>
      dsimp only at hfield
      rw [hcell] at hfield
      cases hfield
      exact exists_fault_of_toCell hcell
  | _ =>
    cases h
    exact ⟨_, rfl⟩

/-- The document is the list of these objects, whose fields are all flat. -/
def IsRows (d : Document) (objects : List (List (String × Document))) : Prop :=
  d = list (objects.map object) ∧ ∀ fields ∈ objects, ∀ field ∈ fields, Flat field.2

theorem exists_map_object {items : List Document} {P : List (String × Document) → Prop}
    (h : ∀ d ∈ items, ∃ fields, d = object fields ∧ P fields) :
    ∃ objects : List (List (String × Document)), items = objects.map object ∧ ∀ fields ∈ objects, P fields := by
  induction items with
  | nil => exact ⟨[], rfl, nofun⟩
  | cons d items ih =>
    obtain ⟨⟨fields, rfl, hfields⟩, hitems⟩ := List.forall_mem_cons.mp h
    obtain ⟨objects, rfl, hobjects⟩ := ih hitems
    exact ⟨fields :: objects, rfl, List.forall_mem_cons.mpr ⟨hfields, hobjects⟩⟩

theorem exists_fault_of_not_isRows {d : Document} (h : ¬∃ objects, IsRows d objects) :
    ∃ fault, d.toTable = .error (.codec fault) := by
  cases d with
  | list items =>
    cases hcells : items.zipIdx.mapM fun p => p.1.toCells p.2 with
    | ok rows =>
      have hitems := exists_mapM_eq_ok_iff.mp ⟨rows, hcells⟩
      have hobject : ∀ d ∈ items, ∃ fields, d = object fields ∧ ∀ field ∈ fields, Flat field.2 := by
        intro d hd
        obtain ⟨i, hi⟩ := List.mem_iff_getElem?.mp hd
        exact exists_toCells_iff.mp (hitems (d, i) (List.mk_mem_zipIdx_iff_getElem?.mpr hi))
      obtain ⟨objects, rfl, hflat⟩ := exists_map_object hobject
      exact absurd ⟨objects, rfl, hflat⟩ h
    | error e =>
      obtain ⟨_, p, _, -, -, hp⟩ := mapM_eq_error_iff.mp hcells
      obtain ⟨fault, rfl⟩ := exists_fault_of_toCells hp
      refine ⟨fault, ?_⟩
      rw [toTable]
      change (List.mapM (fun p : Document × Nat => p.1.toCells p.2) _ >>= _) = _
      rw [hcells]
      rfl
  | _ => exact ⟨.notArray, rfl⟩

/-- The cells of flat objects, one list for each. -/
theorem exists_toCells_of_isRows {objects : List (List (String × Document))}
    (hflat : ∀ fields ∈ objects, ∀ field ∈ fields, Flat field.2) :
    ∃ rows, ((objects.map object).zipIdx.mapM fun (d, i) => d.toCells i) = .ok rows ∧
      List.Forall₂ (List.Forall₂ ShowsField) objects rows := by
  have hsome : ∀ p ∈ (objects.map object).zipIdx, ∃ cells, p.1.toCells p.2 = .ok cells := by
    intro p hp
    obtain ⟨fields, hfields, heq⟩ := List.mem_map.mp (List.fst_mem_of_mem_zipIdx hp)
    exact exists_toCells_iff.mpr ⟨fields, heq.symm, hflat fields hfields⟩
  obtain ⟨rows, hrows⟩ := exists_mapM_eq_ok_iff.mpr hsome
  refine ⟨rows, hrows, ?_⟩
  have hshows := mapM_eq_ok_iff.mp hrows
  rw [List.zipIdx_map, List.forall₂_map_left_iff] at hshows
  have hfst : objects = objects.zipIdx.map (·.1) := (List.zipIdx_map_fst 0 objects).symm
  rw [hfst, List.forall₂_map_left_iff]
  exact hshows.imp fun _ _ => toCells_object_eq_ok_iff.mp

theorem names_of_forall₂ {fields : List (String × Document)} (h : List.Forall₂ ShowsField fields cells) :
    cells.map (·.1) = fields.map (·.1) := by
  induction h with
  | nil => rfl
  | cons hfield _ ih => rw [List.map_cons, List.map_cons, hfield.1, ih]

theorem unionNames_of_forall₂ {objects : List (List (String × Document))}
    {rows : List (List (String × Value))} (h : List.Forall₂ (List.Forall₂ ShowsField) objects rows) :
    unionNames rows = unionNames objects := by
  have hnames : namesIn rows = namesIn objects := by
    induction h with
    | nil => rfl
    | cons hfields _ ih =>
      rw [namesIn, namesIn, List.flatMap_cons, List.flatMap_cons, names_of_forall₂ hfields]
      exact congrArg (_ ++ ·) ih
  rw [unionNames, unionNames, hnames]

theorem denotes_cellUnder {fields : List (String × Document)} (h : List.Forall₂ ShowsField fields cells)
    (hnames : (fields.map (·.1)).Nodup) {d : Document} (hmem : (name, d) ∈ fields) :
    Denotes d (cellUnder cells name) := by
  induction h with
  | nil => cases hmem
  | @cons field cell fields cells hfield _ ih =>
    obtain ⟨hnew, hnames⟩ := List.nodup_cons.mp hnames
    obtain ⟨cellName, v⟩ := cell
    obtain ⟨rfl, hv⟩ := hfield
    rw [cellUnder]
    rcases List.mem_cons.mp hmem with hfirst | hrest
    · cases hfirst
      rwa [List.lookup_cons_self]
    · have hne : (name == field.1) = false := by
        apply beq_false_of_ne
        intro heq
        exact hnew (List.mem_map.mpr ⟨(name, d), hrest, heq⟩)
      rw [List.lookup_cons, hne]
      exact ih hnames hrest

theorem nodup_of_forall₂ {objects : List (List (String × Document))}
    {rows : List (List (String × Value))} (h : List.Forall₂ (List.Forall₂ ShowsField) objects rows)
    (hnames : ∀ fields ∈ objects, (fields.map (·.1)).Nodup) : ∀ cells ∈ rows, (cells.map (·.1)).Nodup := by
  induction h with
  | nil => exact nofun
  | cons hfields _ ih =>
    obtain ⟨hfirst, hrest⟩ := List.forall_mem_cons.mp hnames
    exact List.forall_mem_cons.mpr ⟨names_of_forall₂ hfields ▸ hfirst, ih hrest⟩

/-- The table of the objects: each name that occurs is the name of one column, in the order in which the
names first occur, and each object is a row that holds what its fields denote under their names, and is
missing under all other names. Columns are typed by their values. -/
structure UnionGrid (objects : List (List (String × Document))) (t : Table) : Prop where
  valid : t.Valid
  names : ∀ name, name ∈ t.names ↔ ∃ fields ∈ objects, name ∈ fields.map (·.1)
  order : t.names.Pairwise fun a b => (namesIn objects).idxOf a < (namesIn objects).idxOf b
  types : ∀ c ∈ t.columns, c.type = Column.inferType c.values
  rowCount : t.rowCount = objects.length
  cells : ∀ (i j : Nat) fields name, objects[i]? = some fields → t.names[j]? = some name →
    ∃ v, t.cell? i j = some v ∧ (∀ d, (name, d) ∈ fields → Denotes d v) ∧
      (name ∉ fields.map (·.1) → v = .missing)

theorem exists_getElem?_of_forall₂ {α β : Type} {R : α → β → Prop} {l : List α} {m : List β}
    (h : List.Forall₂ R l m) {i : Nat} {a : α} (ha : l[i]? = some a) :
    ∃ b, m[i]? = some b ∧ R a b := by
  induction h generalizing i with
  | nil => cases ha
  | cons hR _ ih =>
    cases i with
    | zero =>
      cases ha
      exact ⟨_, rfl, hR⟩
    | succ i => exact ih ha

section
variable {objects : List (List (String × Document))}
  (hdistinct : ∀ fields ∈ objects, (fields.map (·.1)).Nodup)
include hdistinct

theorem unionGrid_ofGrid {rows : List (List (String × Value))}
    (hshows : List.Forall₂ (List.Forall₂ ShowsField) objects rows) (hnames : unionNames objects ≠ []) :
    UnionGrid objects
      (.ofGrid (unionNames objects) (rows.map fun cells => (unionNames objects).map (cellUnder cells))) where
  valid := Table.ofGrid_valid (nodup_eraseDups _) (absurd · hnames)
  names name := by
    rw [Table.names_ofGrid]
    exact mem_unionNames
  order := by
    rw [Table.names_ofGrid]
    exact pairwise_eraseDups _
  types c hc := Table.type_ofGrid hc
  rowCount := (List.length_map _).trans hshows.length_eq.symm
  cells i j fields name hfields hname := by
    rw [Table.names_ofGrid] at hname
    obtain ⟨cells, hcells, hrow⟩ := exists_getElem?_of_forall₂ hshows hfields
    have hgrid : (rows.map fun cells => (unionNames objects).map (cellUnder cells))[i]? =
        some ((unionNames objects).map (cellUnder cells)) := by
      rw [List.getElem?_map, hcells]
      rfl
    refine ⟨cellUnder cells name, ?_, ?_, ?_⟩
    · rw [Table.cell?_ofGrid hgrid (List.getElem?_eq_some_iff.mp hname).1, List.getD_eq_getElem?_getD,
        List.getElem?_map, hname]
      rfl
    · intro d hd
      exact denotes_cellUnder hrow (hdistinct fields (List.mem_of_getElem? hfields)) hd
    · intro hnone
      apply cellUnder_of_not_mem
      rwa [names_of_forall₂ hrow]

variable (hflat : ∀ fields ∈ objects, ∀ field ∈ fields, Flat field.2)
include hflat

theorem toTable_of_flat (hkey : ∃ fields ∈ objects, fields ≠ []) :
    ∃ t, toTable (list (objects.map object)) = .ok t ∧ UnionGrid objects t := by
  obtain ⟨rows, hrows, hshows⟩ := exists_toCells_of_isRows hflat
  have hnames : unionNames objects ≠ [] := by
    obtain ⟨fields, hfields, hne⟩ := hkey
    obtain ⟨field, rest, rfl⟩ := List.exists_cons_of_ne_nil hne
    exact List.ne_nil_of_mem (mem_unionNames.mpr ⟨_, hfields, List.mem_cons_self⟩)
  refine ⟨_, ?_, unionGrid_ofGrid hdistinct hshows hnames⟩
  rw [toTable_of_toCells hrows (nodup_of_forall₂ hshows hdistinct), unionNames_of_forall₂ hshows]
  refine Table.ofRows_eq_ok (nodup_eraseDups _) ?_ (absurd · hnames)
  intro row hrow
  obtain ⟨cells, -, rfl⟩ := List.mem_map.mp hrow
  exact List.length_map _

/-- Objects without any fields have no columns, and so no rows. -/
theorem toTable_of_empty (hempty : ∀ fields ∈ objects, fields = []) :
    toTable (list (objects.map object)) = .ok .empty := by
  obtain ⟨rows, hrows, hshows⟩ := exists_toCells_of_isRows hflat
  have hnames : unionNames objects = [] := by
    refine List.eq_nil_iff_forall_not_mem.mpr fun name hname => ?_
    obtain ⟨fields, hfields, hname⟩ := mem_unionNames.mp hname
    rw [hempty fields hfields] at hname
    cases hname
  rw [toTable_of_toCells hrows (nodup_of_forall₂ hshows hdistinct), unionNames_of_forall₂ hshows, hnames]
  refine Table.ofRows_nil fun row hrow => ?_
  obtain ⟨cells, -, rfl⟩ := List.mem_map.mp hrow
  rfl

end

/-- A document that is a list of flat objects is read as the table of its objects, and as the empty table
where they have no fields at all. Any other document is refused, and none for the shape of its table. -/
theorem readTable_union {cs : List (Option Char)} {d : Document}
    (h : (Text.text? cs >>= parse?) = some d) :
    (∀ objects, IsRows d objects → (∃ fields ∈ objects, fields ≠ []) →
      ∃ t, readTable cs = .ok t ∧ UnionGrid objects t) ∧
    (∀ objects, IsRows d objects → (∀ fields ∈ objects, fields = []) → readTable cs = .ok .empty) ∧
    ((¬∃ objects, IsRows d objects) → ∃ fault, readTable cs = .error (.codec fault)) ∧
    ∀ fault, readTable cs ≠ .error (.schema fault) := by
  have hread : readTable cs = d.toTable := by rw [readTable, h]
  have hdistinct : Distinct d := by
    obtain ⟨chars, -, hparse⟩ := Option.bind_eq_some_iff.mp h
    exact distinct_of_parse? hparse
  have hnames {objects : List (List (String × Document))} (hrows : IsRows d objects) :
      ∀ fields ∈ objects, (fields.map (·.1)).Nodup := by
    intro fields hfields
    rw [hrows.1] at hdistinct
    exact (hdistinct.items _ (List.mem_map_of_mem hfields)).nodup_names
  have hunion : ∀ objects, IsRows d objects → (∃ fields ∈ objects, fields ≠ []) →
      ∃ t, readTable cs = .ok t ∧ UnionGrid objects t := by
    intro objects hrows hkey
    rw [hread, hrows.1]
    exact toTable_of_flat (hnames hrows) hrows.2 hkey
  have hempty : ∀ objects, IsRows d objects → (∀ fields ∈ objects, fields = []) →
      readTable cs = .ok .empty := by
    intro objects hrows hnone
    rw [hread, hrows.1]
    exact toTable_of_empty (hnames hrows) hrows.2 hnone
  have hrefused : (¬∃ objects, IsRows d objects) → ∃ fault, readTable cs = .error (.codec fault) := by
    rw [hread]
    exact exists_fault_of_not_isRows
  refine ⟨hunion, hempty, hrefused, ?_⟩
  intro fault hfault
  by_cases hrows : ∃ objects, IsRows d objects
  · obtain ⟨objects, hrows⟩ := hrows
    by_cases hkey : ∃ fields ∈ objects, fields ≠ []
    · obtain ⟨t, ht, -⟩ := hunion objects hrows hkey
      cases ht.symm.trans hfault
    · have hnone : ∀ fields ∈ objects, fields = [] := by
        intro fields hfields
        by_contra hne
        exact hkey ⟨fields, hfields, hne⟩
      cases (hempty objects hrows hnone).symm.trans hfault
  · obtain ⟨other, hother⟩ := hrefused hrows
    cases hother.symm.trans hfault

/-- Objects that have some of the names each, and one of them none. -/
def stock : List (Option Char) :=
  "[\x7b\"b\": 0.5, \"a\": \"x\"\x7d, \x7b\x7d, \x7b\"a\": null, \"c\": true\x7d]".toList.map some

theorem readTable_union_stock : ∃ d objects t, (Text.text? stock >>= parse?) = some d ∧ IsRows d objects ∧
    readTable stock = .ok t ∧ UnionGrid objects t ∧ t.names = ["b", "a", "c"] ∧
    t.rows = [[.number 0.5, .text "x", .missing], [.missing, .missing, .missing],
      [.missing, .missing, .boolean true]] := by
  have hread : (readTable stock).map (fun t => (t.names, t.rows)) = .ok (["b", "a", "c"],
      [[.number 0.5, .text "x", .missing], [.missing, .missing, .missing],
        [.missing, .missing, .boolean true]]) := by
    decide +kernel
  obtain ⟨t, ht, hcontents⟩ := exists_of_map_eq_ok hread
  have hnames : t.names = ["b", "a", "c"] := congrArg Prod.fst hcontents
  obtain ⟨d, hd⟩ : ∃ d, (Text.text? stock >>= parse?) = some d := by
    cases hparse : Text.text? stock >>= parse? with
    | some d => exact ⟨d, rfl⟩
    | none =>
      rw [readTable, hparse] at ht
      cases ht
  obtain ⟨hunion, hempty, hrefused, -⟩ := readTable_union hd
  obtain ⟨objects, hrows⟩ : ∃ objects, IsRows d objects := by
    by_contra hnone
    obtain ⟨fault, hfault⟩ := hrefused hnone
    cases ht.symm.trans hfault
  have hkey : ∃ fields ∈ objects, fields ≠ [] := by
    by_contra hnone
    have hread := hempty objects hrows fun fields hfields => by_contra fun hne => hnone ⟨fields, hfields, hne⟩
    cases ht.symm.trans hread
    cases hnames
  obtain ⟨t', ht', hgrid⟩ := hunion objects hrows hkey
  cases ht.symm.trans ht'
  exact ⟨d, objects, t, hd, hrows, ht, hgrid, hnames, congrArg Prod.snd hcontents⟩

end Tabular.Document
