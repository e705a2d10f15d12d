import Mathlib.Data.List.Nodup
import Mathlib.Data.List.Pairwise
import Tabular.Table.Classes

/-!
# Classes are a partition

Dividing a list into classes of equal keys loses no item and repeats none. A class holds all items of
one key in their order, or one item without a key, and the classes come in the order of their first
items. Putting one item after another into the group of its key makes these classes, and the rows of a
table fall into groups in this way.
-/
namespace Tabular

section
variable {α κ : Type} [DecidableEq κ] {key : α → Option κ} {items members : List α}

/-- The classes of items with equal keys. -/
def classes (key : α → Option κ) : List α → List (List α)
  | [] => []
  | item :: rest =>
    match key item with
    | none => [item] :: classes key rest
    | some k =>
      (item :: rest.filter (key · = some k)) :: classes key (rest.filter (key · ≠ some k))
termination_by items => items.length
decreasing_by
  · simp
  · simp only [List.length_unattach, List.length_cons]
    exact Nat.lt_succ_of_le (Nat.le_trans (List.length_filter_le ..) (by simp))

/-- Induction along the classes of a list: an item with a key takes all items of its class with it. -/
@[elab_as_elim]
theorem classes_induction (key : α → Option κ) {motive : List α → Prop} (nil : motive [])
    (keyless : ∀ item rest, key item = none → motive rest → motive (item :: rest))
    (keyed : ∀ item rest k, key item = some k → motive (rest.filter (key · ≠ some k)) →
      motive (item :: rest)) (items : List α) : motive items := by
  induction items using classes.induct key with
  | case1 => exact nil
  | case2 item rest h ih => exact keyless item rest h ih
  | case3 item rest k h ih =>
    refine keyed item rest k h ?_
    rwa [List.unattach_filter, List.unattach_attach] at ih
    exact fun _ _ => rfl

theorem classes_nil : classes key [] = [] := by rw [classes]

theorem classes_cons_of_keyless {item : α} {rest : List α} (h : key item = none) :
    classes key (item :: rest) = [item] :: classes key rest := by
  rw [classes, h]

theorem classes_cons_of_key {item : α} {rest : List α} {k : κ} (h : key item = some k) :
    classes key (item :: rest) =
      (item :: rest.filter (key · = some k)) :: classes key (rest.filter (key · ≠ some k)) := by
  rw [classes, h]

theorem flatten_classes_perm (key : α → Option κ) (items : List α) :
    (classes key items).flatten.Perm items := by
  induction items using classes_induction key with
  | nil => rw [classes_nil, List.flatten_nil]
  | keyless item rest h ih =>
    rw [classes_cons_of_keyless h]
    exact ih.cons item
  | keyed item rest k h ih =>
    rw [classes_cons_of_key h]
    have hsplit := List.filter_append_perm (key · = some k) rest
    simp only [← decide_not] at hsplit
    exact ((ih.append_left _).trans hsplit).cons item

/-- A class is an item without a key, or all items of one key. -/
theorem mem_classes (h : members ∈ classes key items) :
    (∃ x ∈ items, key x = none ∧ members = [x]) ∨
    ∃ x ∈ items, ∃ k, key x = some k ∧ members = items.filter (key · = some k) := by
  induction items using classes_induction key with
  | nil =>
    rw [classes_nil] at h
    cases h
  | keyless item rest hkey ih =>
    rw [classes_cons_of_keyless hkey] at h
    obtain rfl | h := List.mem_cons.mp h
    · exact .inl ⟨item, List.mem_cons_self, hkey, rfl⟩
    · obtain ⟨x, hx, hnone, rfl⟩ | ⟨x, hx, k, hk, rfl⟩ := ih h
      · exact .inl ⟨x, List.mem_cons_of_mem _ hx, hnone, rfl⟩
      · refine .inr ⟨x, List.mem_cons_of_mem _ hx, k, hk, ?_⟩
        rw [List.filter_cons_of_neg (by simp [hkey])]
  | keyed item rest k hkey ih =>
    rw [classes_cons_of_key hkey] at h
    obtain rfl | h := List.mem_cons.mp h
    · refine .inr ⟨item, List.mem_cons_self, k, hkey, ?_⟩
      rw [List.filter_cons_of_pos (by simp [hkey])]
    · obtain ⟨x, hx, hnone, rfl⟩ | ⟨x, hx, k', hk', rfl⟩ := ih h
      · exact .inl ⟨x, List.mem_cons_of_mem _ (List.mem_of_mem_filter hx), hnone, rfl⟩
      · -- the class lost no item when those of another key were taken out before
        have hne : k' ≠ k := by
          rintro rfl
          simp [hk'] at hx
        refine .inr ⟨x, List.mem_cons_of_mem _ (List.mem_of_mem_filter hx), k', hk', ?_⟩
        rw [List.filter_cons_of_neg (by simp [hkey, hne.symm]), List.filter_filter]
        refine List.filter_congr fun y _ => ?_
        by_cases hy : key y = some k' <;> simp [hy, hne]

theorem sublist_of_mem_classes (h : members ∈ classes key items) : members.Sublist items := by
  obtain ⟨x, hx, -, rfl⟩ | ⟨x, hx, k, hk, rfl⟩ := mem_classes h
  · exact List.singleton_sublist.mpr hx
  · exact List.filter_sublist

theorem exists_mem_classes (key : α → Option κ) {x : α} (hx : x ∈ items) :
    ∃ members ∈ classes key items, x ∈ members :=
  List.mem_flatten.mp ((flatten_classes_perm key items).mem_iff.mpr hx)

/-- Two different items are in one class if they have keys, and the same. -/
theorem mem_same_class_iff {x y : α} (hx : x ∈ items) (hy : y ∈ items) (hne : x ≠ y) :
    (∃ members ∈ classes key items, x ∈ members ∧ y ∈ members) ↔
      ∃ k, key x = some k ∧ key y = some k := by
  constructor
  · rintro ⟨members, hmembers, hxm, hym⟩
    obtain ⟨z, -, -, rfl⟩ | ⟨z, -, k, -, rfl⟩ := mem_classes hmembers
    · exact absurd ((List.mem_singleton.mp hxm).trans (List.mem_singleton.mp hym).symm) hne
    · exact ⟨k, by simpa using (List.mem_filter.mp hxm).2, by simpa using (List.mem_filter.mp hym).2⟩
  · rintro ⟨k, hkx, hky⟩
    obtain ⟨members, hmembers, hxm⟩ := exists_mem_classes key hx
    refine ⟨members, hmembers, hxm, ?_⟩
    obtain ⟨z, -, hnone, rfl⟩ | ⟨z, -, k', -, rfl⟩ := mem_classes hmembers
    · rw [List.mem_singleton.mp hxm, hnone] at hkx
      cases hkx
    · have hk' : key x = some k' := by simpa using (List.mem_filter.mp hxm).2
      obtain rfl := Option.some.inj (hk'.symm.trans hkx)
      exact List.mem_filter.mpr ⟨hy, by simpa using hky⟩

/-- Every class has a first item, and these come in the order of the list. -/
theorem exists_heads_classes (key : α → Option κ) (items : List α) :
    ∃ heads : List α, heads.Sublist items ∧ (classes key items).map List.head? = heads.map some := by
  induction items using classes_induction key with
  | nil => exact ⟨[], .slnil, by rw [classes_nil, List.map_nil, List.map_nil]⟩
  | keyless item rest h ih =>
    obtain ⟨heads, hsub, hheads⟩ := ih
    refine ⟨item :: heads, hsub.cons_cons item, ?_⟩
    rw [classes_cons_of_keyless h, List.map_cons, List.map_cons, hheads, List.head?_cons]
  | keyed item rest k h ih =>
    obtain ⟨heads, hsub, hheads⟩ := ih
    refine ⟨item :: heads, (hsub.trans List.filter_sublist).cons_cons item, ?_⟩
    rw [classes_cons_of_key h, List.map_cons, List.map_cons, hheads, List.head?_cons]

def classIndex? (key : α → Option κ) (items : List α) (k : κ) : Option Nat :=
  (classes key items).findIdx? fun members => members.head?.bind key = some k

/-- Some classes after an item was put into one of them or, without a number, into a new one. -/
def entered (index : Option Nat) (item : α) (groups : List (List α)) : List (List α) :=
  match index with
  | some i => groups.modify i (· ++ [item])
  | none => groups ++ [[item]]

theorem entered_succ (index : Option Nat) (item : α) (group : List α) (groups : List (List α)) :
    entered (index.map (· + 1)) item (group :: groups) = group :: entered index item groups := by
  cases index <;> rfl

theorem classIndex?_nil (k : κ) : classIndex? key [] k = none := by
  rw [classIndex?, classes_nil, List.findIdx?_nil]

theorem classIndex?_cons_of_keyless {item : α} {rest : List α} (h : key item = none) (k : κ) :
    classIndex? key (item :: rest) k = (classIndex? key rest k).map (· + 1) := by
  rw [classIndex?, classes_cons_of_keyless h, List.findIdx?_cons, if_neg (by simp [h])]
  rfl

theorem classIndex?_cons_self {item : α} {rest : List α} {k : κ} (h : key item = some k) :
    classIndex? key (item :: rest) k = some 0 := by
  rw [classIndex?, classes_cons_of_key h, List.findIdx?_cons, if_pos (by simp [h])]

theorem classIndex?_cons_of_ne {item : α} {rest : List α} {k k' : κ} (h : key item = some k) (hne : k' ≠ k) :
    classIndex? key (item :: rest) k' =
      (classIndex? key (rest.filter (key · ≠ some k)) k').map (· + 1) := by
  rw [classIndex?, classes_cons_of_key h, List.findIdx?_cons, if_neg (by simp [h, hne.symm])]
  rfl

/-- One more item enters the class of its key. -/
theorem classes_concat (key : α → Option κ) (items : List α) (x : α) :
    classes key (items ++ [x]) = entered ((key x).bind (classIndex? key items)) x (classes key items) := by
  induction items using classes_induction key with
  | nil =>
    have hindex : ((key x).bind (classIndex? key [])) = none :=
      Option.bind_eq_none_iff.mpr fun k _ => classIndex?_nil k
    rw [hindex, List.nil_append, classes_nil]
    cases hx : key x with
    | none => rw [classes_cons_of_keyless hx, classes_nil]; rfl
    | some k => rw [classes_cons_of_key hx, List.filter_nil, List.filter_nil, classes_nil]; rfl
  | keyless item rest h ih =>
    have hindex : (key x).bind (classIndex? key (item :: rest)) =
        ((key x).bind (classIndex? key rest)).map (· + 1) := by
      rw [Option.map_bind]
      exact congrArg _ (funext fun k => classIndex?_cons_of_keyless h k)
    rw [List.cons_append, classes_cons_of_keyless h, classes_cons_of_keyless h, ih, hindex, entered_succ]
  | keyed item rest k h ih =>
    rw [List.cons_append, classes_cons_of_key h, classes_cons_of_key h, List.filter_append,
      List.filter_append]
    by_cases hx : key x = some k
    · rw [hx, Option.bind_some, classIndex?_cons_self h, List.filter_cons_of_pos (by simp [hx]),
        List.filter_cons_of_neg (by simp [hx]), List.filter_nil, List.filter_nil, List.append_nil]
      rfl
    · have hindex : (key x).bind (classIndex? key (item :: rest)) =
          ((key x).bind (classIndex? key (rest.filter (key · ≠ some k)))).map (· + 1) := by
        cases hkey : key x with
        | none => rfl
        | some k' => exact classIndex?_cons_of_ne h fun heq => hx (hkey.trans (congrArg some heq))
      rw [List.filter_cons_of_neg (by simp [hx]), List.filter_cons_of_pos (by simp [hx]), List.filter_nil,
        List.append_nil, List.filter_nil, ih, hindex, entered_succ]

theorem ne_nil_of_mem_classes (h : members ∈ classes key items) : members ≠ [] := by
  obtain ⟨x, -, -, rfl⟩ | ⟨x, hx, k, hk, rfl⟩ := mem_classes h
  · exact List.cons_ne_nil _ _
  · exact List.ne_nil_of_mem (List.mem_filter.mpr ⟨hx, by simpa using hk⟩)

theorem findIdx?_modify {β : Type} {p : β → Bool} {f : β → β} {l : List β} (h : ∀ b ∈ l, p (f b) = p b)
    (i : Nat) : (l.modify i f).findIdx? p = l.findIdx? p := by
  induction l generalizing i with
  | nil => rw [List.modify_nil]
  | cons b l ih =>
    have hrest := ih fun c hc => h c (List.mem_cons_of_mem _ hc)
    cases i with
    | zero => rw [List.modify_zero_cons, List.findIdx?_cons, List.findIdx?_cons, h b List.mem_cons_self]
    | succ i => rw [List.modify_succ_cons, List.findIdx?_cons, List.findIdx?_cons, hrest]

/-- A new class gets the next number, and no class changes its own. -/
theorem classIndex?_concat (key : α → Option κ) (items : List α) (x : α) (k : κ) :
    classIndex? key (items ++ [x]) k =
      if key x = some k ∧ classIndex? key items k = none then some (classes key items).length
      else classIndex? key items k := by
  rw [classIndex?, classes_concat]
  cases hindex : (key x).bind (classIndex? key items) with
  | none =>
    rw [entered, List.findIdx?_append, ← classIndex?, List.findIdx?_singleton]
    by_cases hx : key x = some k
    · have hnone : classIndex? key items k = none := by rwa [hx, Option.bind_some] at hindex
      simp [hx, hnone]
    · simp [hx]
  | some i =>
    have hkeep (m : List α) (hm : m ∈ classes key items) : (m ++ [x]).head? = m.head? :=
      List.head?_append_of_ne_nil _ (ne_nil_of_mem_classes hm)
    rw [entered, findIdx?_modify fun m hm => by rw [hkeep m hm], ← classIndex?, if_neg]
    rintro ⟨hx, hnone⟩
    rw [hx, Option.bind_some, hnone] at hindex
    cases hindex

namespace Grouping

/-- The groups are the classes of the items that were put into them, and the slots hold their numbers. -/
structure Holds (key : α → Option κ) (items : List α) (g : Grouping α κ) : Prop where
  groups : g.groups = classes key items
  slots : ∀ k, g.slots.lookup k = classIndex? key items k

variable {g : Grouping α κ}

theorem Holds.add (h : g.Holds key items) (x : α) : (g.add key x).Holds key (items ++ [x]) := by
  have hclasses := classes_concat key items x
  have hindex := classIndex?_concat key items x
  unfold Grouping.add
  split
  next hx =>
    simp only [hx, reduceCtorEq, false_and, if_false, Option.bind_none, entered] at hclasses hindex
    exact ⟨by rw [hclasses, h.groups], fun k => by rw [hindex, h.slots]⟩
  next k hx =>
    rw [hx, Option.bind_some, ← h.slots] at hclasses
    split
    next i hi =>
      rw [hi, entered] at hclasses
      refine ⟨by rw [hclasses, h.groups], fun k' => ?_⟩
      rw [hindex, if_neg, h.slots]
      rintro ⟨hx', hnone⟩
      obtain rfl := Option.some.inj (hx.symm.trans hx')
      rw [h.slots, hnone] at hi
      cases hi
    next hi =>
      rw [hi, entered] at hclasses
      refine ⟨by rw [hclasses, h.groups], fun k' => ?_⟩
      rw [hindex, hx, List.lookup_cons]
      by_cases hk : k' = k
      · rw [hk, BEq.rfl, if_pos ⟨rfl, (h.slots k).symm.trans hi⟩, h.groups]
      · rw [beq_eq_false_iff_ne.mpr hk, if_neg fun hnew => hk (Option.some.inj hnew.1).symm, h.slots]

theorem Holds.foldl (h : g.Holds key items) (rest : List α) :
    (rest.foldl (Grouping.add key) g).Holds key (items ++ rest) := by
  induction rest generalizing items g with
  | nil => rwa [List.append_nil]
  | cons x rest ih =>
    rw [List.append_cons]
    exact ih (h.add x)

theorem holds_empty (key : α → Option κ) : (⟨[], []⟩ : Grouping α κ).Holds key [] :=
  ⟨classes_nil.symm, fun k => (classIndex?_nil k).symm⟩

theorem holds_ofItems (key : α → Option κ) (items : List α) : (ofItems key items).Holds key items :=
  (holds_empty key).foldl items

end Grouping

end

theorem Value.key?_eq_none_iff {v : Value} : v.key? = none ↔ v.isError = true := by
  cases v <;> simp [key?, isError]

namespace Table

theorem rowClasses_eq (t : Table) (columns : List Column) :
    t.rowClasses columns =
      classes (fun i => keyOf (columns.map (·.value i))) (List.range t.rowCount) :=
  (Grouping.holds_ofItems _ _).groups

theorem keyOf_cons_eq_some {v : Value} {vs : List Value} {ks : List Value.Key} :
    keyOf (v :: vs) = some ks ↔ ∃ k rest, v.key? = some k ∧ keyOf vs = some rest ∧ k :: rest = ks := by
  simp [keyOf, List.mapM_cons, Option.bind_eq_some_iff]

theorem keyOf_eq_none {vs : List Value} : keyOf vs = none ↔ ∃ v ∈ vs, v.isError = true := by
  induction vs with
  | nil => simp [keyOf]
  | cons v vs ih =>
    rw [List.exists_mem_cons_iff, ← ih, ← Value.key?_eq_none_iff]
    cases hv : v.key? <;> cases hvs : vs.mapM Value.key? <;> simp [keyOf, hv, hvs]

/-- Rows have one key in some columns if their cells have, column by column. -/
theorem sameKey_iff {columns : List Column} {i j : Nat} :
    (∃ ks, keyOf (columns.map (·.value i)) = some ks ∧ keyOf (columns.map (·.value j)) = some ks) ↔
      ∀ c ∈ columns, ∃ k, (c.value i).key? = some k ∧ (c.value j).key? = some k := by
  induction columns with
  | nil => exact ⟨fun _ => nofun, fun _ => ⟨[], rfl, rfl⟩⟩
  | cons c rest ih =>
    rw [List.forall_mem_cons, ← ih]
    simp only [List.map_cons, keyOf_cons_eq_some]
    constructor
    · rintro ⟨_, ⟨k, ks, hk, hks, rfl⟩, k', ks', hk', hks', heq⟩
      obtain ⟨rfl, rfl⟩ := List.cons.inj heq
      exact ⟨⟨_, hk, hk'⟩, _, hks, hks'⟩
    · rintro ⟨⟨k, hk, hk'⟩, ks, hks, hks'⟩
      exact ⟨k :: ks, ⟨k, ks, hk, hks, rfl⟩, k, ks, hk', hks', rfl⟩

/-- The rows of a table are divided into groups by their cells in some columns. -/
structure Grouped (t : Table) (columns : List Column) (groups : List (List Nat)) : Prop where
  /-- Every row is in exactly one group. -/
  rows : groups.flatten.Perm (List.range t.rowCount)
  /-- The rows of a group are in the order of the table. -/
  ascending : ∀ rows ∈ groups, rows.Pairwise (· < ·)
  /-- Every group has a first row, and the groups are in the order of their first rows. -/
  firsts : ∃ firsts : List Nat, groups.map List.head? = firsts.map some ∧ firsts.Pairwise (· < ·)
  /-- Two rows are in one group if none of their cells is an error and the keys of the cells are the
  same. -/
  together : ∀ i j, i < t.rowCount → j < t.rowCount → i ≠ j →
    ((∃ rows ∈ groups, i ∈ rows ∧ j ∈ rows) ↔ ∀ c ∈ columns, (c.value i).isError = false ∧
      (c.value j).isError = false ∧ (c.value i).key? = (c.value j).key?)

theorem grouped_rowClasses (t : Table) (columns : List Column) :
    t.Grouped columns (t.rowClasses columns) := by
  rw [rowClasses_eq]
  constructor
  case rows => exact flatten_classes_perm _ _
  case ascending => exact fun rows hrows => List.pairwise_lt_range.sublist (sublist_of_mem_classes hrows)
  case firsts =>
    obtain ⟨firsts, hsub, hfirsts⟩ := exists_heads_classes
      (fun i => keyOf (columns.map (·.value i))) (List.range t.rowCount)
    exact ⟨firsts, hfirsts, List.pairwise_lt_range.sublist hsub⟩
  case together =>
    intro i j hi hj hne
    rw [mem_same_class_iff (List.mem_range.mpr hi) (List.mem_range.mpr hj) hne, sameKey_iff]
    refine forall₂_congr fun c _ => ?_
    rw [← Bool.not_eq_true, ← Bool.not_eq_true, ← Value.key?_eq_none_iff, ← Value.key?_eq_none_iff]
    cases (c.value i).key? <;> cases (c.value j).key? <;> simp [eq_comm]

end Table

end Tabular
