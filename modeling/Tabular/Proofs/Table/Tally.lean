import Tabular.Proofs.Table.Distinct
import Tabular.Proofs.Table.Sort

/-!
# Distinct values and their counts

A value of a column is seen for the first time in a row if it is no error and no row before has its key.
The values in these rows are the distinct values of the column. Counted, they are sorted by how often
their keys occur, and those that occur equally often stay in the order of their first rows.
-/
namespace Tabular

section
variable {α β κ : Type} [DecidableEq κ] {key : α → Option κ} {seen seen' : List κ} {items : List α}

/-- It does not matter in which order keys were seen. -/
theorem unseen_congr (h : ∀ k, k ∈ seen ↔ k ∈ seen') :
    unseen key seen items = unseen key seen' items := by
  induction items generalizing seen seen' with
  | nil => rfl
  | cons item rest ih =>
    rw [unseen, unseen]
    cases key item with
    | none => exact congrArg _ (ih h)
    | some k =>
      dsimp only
      have hcons (k' : κ) : k' ∈ k :: seen ↔ k' ∈ k :: seen' := by
        rw [List.mem_cons, List.mem_cons, h k']
      rw [ih h, ih hcons]
      exact if_congr (h k) rfl rfl

/-- A key that was seen might as well have been left out. -/
theorem unseen_cons (k : κ) (seen : List κ) (items : List α) :
    unseen key (k :: seen) items = unseen key seen (items.filter (key · ≠ some k)) := by
  induction items generalizing seen with
  | nil => rfl
  | cons item rest ih =>
    rw [unseen]
    cases hkey : key item with
    | none => rw [List.filter_cons_of_pos (by simp [hkey]), unseen, hkey, ih]
    | some k' =>
      dsimp only
      by_cases heq : k' = k
      · rw [if_pos (by simp [heq]), List.filter_cons_of_neg (by simp [hkey, heq]), ih]
      · have hswap (k'' : κ) : k'' ∈ k' :: k :: seen ↔ k'' ∈ k :: k' :: seen := by
          simp only [List.mem_cons]
          tauto
        rw [List.filter_cons_of_pos (by simp [hkey, heq]), unseen, hkey, unseen_congr hswap, ih, ih]
        exact if_congr (by simp [heq]) rfl rfl

theorem mem_of_mem_unseen {x : α} (h : x ∈ unseen key seen items) : x ∈ items := by
  induction items generalizing seen with
  | nil => cases h
  | cons item rest ih =>
    rw [unseen] at h
    split at h
    next =>
      obtain rfl | h := List.mem_cons.mp h
      · exact List.mem_cons_self
      · exact List.mem_cons_of_mem _ (ih h)
    next =>
      split at h
      · exact List.mem_cons_of_mem _ (ih h)
      · obtain rfl | h := List.mem_cons.mp h
        · exact List.mem_cons_self
        · exact List.mem_cons_of_mem _ (ih h)

theorem unseen_map (f : β → α) (items : List β) :
    unseen key seen (items.map f) = (unseen (key ∘ f) seen items).map f := by
  induction items generalizing seen with
  | nil => rfl
  | cons item rest ih =>
    rw [List.map_cons, unseen, unseen, Function.comp_apply]
    cases key (f item) with
    | none => exact congrArg _ ih
    | some k =>
      dsimp only
      split
      · exact ih
      · exact congrArg _ ih

/-- Items without a key do not change which of the others are unseen. -/
theorem unseen_filter_isSome (items : List α) : unseen key seen (items.filter fun x => (key x).isSome) =
    (unseen key seen items).filter fun x => (key x).isSome := by
  induction items generalizing seen with
  | nil => rfl
  | cons item rest ih =>
    cases hkey : key item with
    | none =>
      rw [List.filter_cons_of_neg (by simp [hkey]), unseen, hkey,
        List.filter_cons_of_neg (by simp [hkey]), ih]
    | some k =>
      rw [List.filter_cons_of_pos (by simp [hkey]), unseen, unseen, hkey]
      dsimp only
      split
      · exact ih
      · rw [List.filter_cons_of_pos (by simp [hkey]), ih]

/-- The first items of the classes are the unseen ones, and a class has all items of one key. -/
theorem map_classes (h : ∀ x ∈ items, key x ≠ none) :
    (classes key items).map (fun members => (members.head?, members)) =
      (unseen key [] items).map fun x => (some x, items.filter (key · = key x)) := by
  induction items using classes_induction key with
  | nil => rw [classes_nil, unseen, List.map_nil, List.map_nil]
  | keyless item rest hkey => exact absurd hkey (h item List.mem_cons_self)
  | keyed item rest k hkey ih =>
    have hrest : ∀ x ∈ rest.filter (key · ≠ some k), key x ≠ none := fun x hx =>
      h x (List.mem_cons_of_mem _ (List.mem_of_mem_filter hx))
    rw [classes_cons_of_key hkey, unseen, hkey, List.map_cons, ih hrest]
    dsimp only
    rw [if_neg List.not_mem_nil, List.map_cons, unseen_cons, hkey, List.filter_cons_of_pos (by simp [hkey])]
    refine congrArg _ (List.map_congr_left fun x hx => ?_)
    -- an item of another key has no part in the class of the first one
    have hne : key x ≠ some k := by simpa using List.of_mem_filter (mem_of_mem_unseen hx)
    rw [List.filter_cons_of_neg (by simp [hkey, hne.symm]), List.filter_filter]
    refine congrArg _ (List.filter_congr fun y _ => ?_)
    by_cases hy : key y = key x <;> simp [hy, hne]

theorem map_modify {f : α → α} {g : β → β} {h : α → β} {l : List α} (hfg : ∀ a ∈ l, h (f a) = g (h a))
    (i : Nat) : (l.modify i f).map h = (l.map h).modify i g := by
  induction l generalizing i with
  | nil => rw [List.modify_nil, List.map_nil, List.modify_nil]
  | cons a l ih =>
    have hrest := ih fun b hb => hfg b (List.mem_cons_of_mem _ hb)
    cases i with
    | zero =>
      rw [List.modify_zero_cons, List.map_cons, List.map_cons, List.modify_zero_cons, hfg a List.mem_cons_self]
    | succ i => rw [List.modify_succ_cons, List.map_cons, List.map_cons, List.modify_succ_cons, hrest]

end

namespace Tally

def entry (members : List Value) : Value × Nat := (members.headD .missing, members.length)

/-- The counts are those of some groups. -/
structure Counts (g : Grouping Value Value.Key) (s : Tally) : Prop where
  counts : s.counts = g.groups.map entry
  slots : s.slots = g.slots

variable {g : Grouping Value Value.Key} {s : Tally} {values : List Value} {v : Value}

theorem add_of_key?_eq_none (h : v.key? = none) : s.add v = s := by rw [add, h]

theorem entry_append {members : List Value} (h : members ≠ []) (v : Value) :
    entry (members ++ [v]) = ((entry members).1, (entry members).2 + 1) := by
  cases members with
  | nil => exact absurd rfl h
  | cons w rest => simp [entry]

/-- A value that has a key is counted as it is put into a group. -/
theorem Counts.add (h : s.Counts g) (hgroups : ∀ members ∈ g.groups, members ≠ []) {k : Value.Key}
    (hv : v.key? = some k) : (s.add v).Counts (g.add Value.key? v) := by
  have hslot : s.slots.lookup k = g.slots.lookup k := by rw [h.slots]
  cases hi : g.slots.lookup k with
  | none =>
    simp only [Tally.add, Grouping.add, hv, hslot, hi]
    refine ⟨?_, ?_⟩
    · rw [h.counts, List.map_append]
      rfl
    · rw [h.counts, h.slots, List.length_map]
  | some i =>
    simp only [Tally.add, Grouping.add, hv, hslot, hi]
    refine ⟨?_, h.slots⟩
    rw [h.counts]
    exact (map_modify (g := fun count : Value × Nat => (count.1, count.2 + 1))
      (fun members hmembers => entry_append (hgroups members hmembers) v) i).symm

theorem Counts.foldl {items : List Value} (h : s.Counts g) (hg : g.Holds Value.key? items)
    (values : List Value) : (values.foldl Tally.add s).Counts
      ((values.filter (·.key?.isSome)).foldl (Grouping.add Value.key?) g) := by
  induction values generalizing s g items with
  | nil => exact h
  | cons v rest ih =>
    cases hv : v.key? with
    | none =>
      rw [List.foldl_cons, add_of_key?_eq_none hv, List.filter_cons_of_neg (by simp [hv])]
      exact ih h hg
    | some k =>
      have hgroups : ∀ members ∈ g.groups, members ≠ [] := by
        rw [hg.groups]
        exact fun _ => ne_nil_of_mem_classes
      rw [List.foldl_cons, List.filter_cons_of_pos (by simp [hv]), List.foldl_cons]
      exact ih (h.add hgroups hv) (hg.add v)

end Tally

namespace Column

variable {c : Column} {i j : Nat}

/-- The value in the row is no error and no row before has the same key. -/
def IsFirst (c : Column) (i : Nat) : Prop :=
  (c.value i).isError = false ∧ ∀ j < i, (c.value j).key? ≠ (c.value i).key?

instance (c : Column) (i : Nat) : Decidable (c.IsFirst i) :=
  inferInstanceAs (Decidable ((c.value i).isError = false ∧
    ∀ j < i, (c.value j).key? ≠ (c.value i).key?))

def firstRows (c : Column) : List Nat := (List.range c.values.length).filter (c.IsFirst ·)

def frequency (c : Column) (v : Value) : Nat := c.values.countP (·.key? = v.key?)

theorem isFirst_iff : c.IsFirst i ↔ (c.value i).key?.isSome = true ∧
    ((c.value i).key? = none ∨ ∀ j < i, (c.value j).key? ≠ (c.value i).key?) := by
  rw [IsFirst, ← Bool.not_eq_true, ← Value.key?_eq_none_iff]
  cases (c.value i).key? <;> simp

theorem map_value_range (c : Column) : (List.range c.values.length).map c.value = c.values :=
  congrArg Column.values c.takeRows_range

/-- The values with a key that are unseen are those in the first rows. -/
theorem unseen_keyed (c : Column) :
    unseen Value.key? [] (c.values.filter (·.key?.isSome)) = c.firstRows.map c.value := by
  have hpresent : c.values.filter (·.key?.isSome) =
      ((List.range c.values.length).filter fun i => (c.value i).key?.isSome).map c.value := by
    conv_lhs => rw [← c.map_value_range]
    exact List.filter_map
  rw [hpresent, unseen_map, firstRows, List.range_eq_range']
  refine congrArg (List.map c.value) ((unseen_filter_isSome _).trans ?_)
  rw [unseen_range' Seen.nil, List.filter_filter]
  refine List.filter_congr fun i _ => ?_
  rw [Bool.eq_iff_iff, Bool.and_eq_true, decide_eq_true_iff, decide_eq_true_iff]
  exact isFirst_iff.symm

/-- The values with a key in classes of equal ones. -/
def valueClasses (c : Column) : List (List Value) :=
  classes Value.key? (c.values.filter (·.key?.isSome))

theorem tally_eq_map_valueClasses (c : Column) : c.tally = c.valueClasses.map Tally.entry := by
  have hempty : (⟨[], []⟩ : Tally).Counts ⟨[], []⟩ := ⟨rfl, rfl⟩
  have hcounts := hempty.foldl (Grouping.holds_empty _) c.values
  rw [tally, hcounts.counts, valueClasses, ← (Grouping.holds_ofItems _ _).groups]
  rfl

/-- The distinct values are those in the first rows, each with its frequency. -/
theorem tally_eq (c : Column) :
    c.tally = c.firstRows.map fun i => (c.value i, c.frequency (c.value i)) := by
  have hkeyed : ∀ v ∈ c.values.filter (·.key?.isSome), v.key? ≠ none := by
    intro v hv
    exact Option.isSome_iff_ne_none.mp (List.mem_filter.mp hv).2
  have hentry : Tally.entry =
      (fun entry : Option Value × List Value => (entry.1.getD .missing, entry.2.length)) ∘
        fun members => (members.head?, members) :=
    funext fun members => congrArg (·, _) List.headD_eq_head?_getD
  have hcount (v : Value) (hv : v ∈ c.values.filter (·.key?.isSome)) :
      ((c.values.filter (·.key?.isSome)).filter (·.key? = v.key?)).length = c.frequency v := by
    rw [frequency, List.countP_eq_length_filter, List.filter_filter]
    refine congrArg List.length (List.filter_congr fun w _ => ?_)
    by_cases hw : w.key? = v.key?
    · simp [hw, Option.isSome_iff_ne_none.mpr (hkeyed v hv)]
    · simp [hw]
  calc c.tally
    _ = (unseen Value.key? [] (c.values.filter (·.key?.isSome))).map fun v => (v, c.frequency v) := by
      rw [tally_eq_map_valueClasses, valueClasses, hentry, ← List.map_map, map_classes hkeyed, List.map_map]
      refine List.map_congr_left fun v hv => ?_
      exact congrArg (v, ·) (hcount v (mem_of_mem_unseen hv))
    _ = c.firstRows.map fun i => (c.value i, c.frequency (c.value i)) := by
      rw [unseen_keyed, List.map_map]
      rfl

theorem mem_firstRows : i ∈ c.firstRows ↔ i < c.values.length ∧ c.IsFirst i := by
  simp [firstRows]

/-- One row for each key that the values of a column have, in their order: the first with this key. -/
structure Firsts (c : Column) (rows : List Nat) : Prop where
  ascending : rows.Pairwise (· < ·)
  values : ∀ i ∈ rows, i < c.values.length ∧ (c.value i).isError = false
  /-- No key occurs twice. -/
  once : rows.Pairwise fun i j => (c.value i).key? ≠ (c.value j).key?
  /-- Every value that is no error has the key of one of the rows, which does not come after it. -/
  seen : ∀ j < c.values.length, (c.value j).isError = false →
    ∃ i ∈ rows, i ≤ j ∧ (c.value i).key? = (c.value j).key?

theorem firsts_firstRows (c : Column) : c.Firsts c.firstRows := by
  have hascending : c.firstRows.Pairwise (· < ·) := List.pairwise_lt_range.filter _
  constructor
  case ascending => exact hascending
  case values =>
    intro i hi
    obtain ⟨hlt, hfirst⟩ := mem_firstRows.mp hi
    exact ⟨hlt, hfirst.1⟩
  case once =>
    refine hascending.imp_of_mem fun {i j} _ hj hij => ?_
    exact (mem_firstRows.mp hj).2.2 i hij
  case seen =>
    intro j hj hvalue
    -- the least row with the key is a first row
    have hsome : ∃ i, (c.value i).key? = (c.value j).key? := ⟨j, rfl⟩
    have hkey := Nat.find_spec hsome
    have hle : Nat.find hsome ≤ j := Nat.find_min' hsome rfl
    refine ⟨Nat.find hsome, mem_firstRows.mpr ⟨hle.trans_lt hj, ?_, fun k hk heq => ?_⟩, hle, hkey⟩
    · exact (Value.isError_eq_of_key? hkey).trans hvalue
    · exact Nat.find_min hsome hk (heq.trans hkey)

/-- The frequencies of the values in all first rows add up to the number of values that are no errors. -/
theorem sum_frequency (c : Column) :
    (c.firstRows.map fun i => c.frequency (c.value i)).sum = c.values.countP (!·.isError) := by
  have hpresent (v : Value) : v.key?.isSome = !v.isError := by cases v <;> rfl
  have hcounts : c.tally.map (·.2) = c.firstRows.map fun i => c.frequency (c.value i) := by
    rw [tally_eq, List.map_map]
    rfl
  calc (c.firstRows.map fun i => c.frequency (c.value i)).sum
    _ = (c.valueClasses.map List.length).sum := by
      rw [← hcounts, tally_eq_map_valueClasses, List.map_map]
      rfl
    _ = (c.values.filter (·.key?.isSome)).length := by
      rw [← List.length_flatten, valueClasses, (flatten_classes_perm _ _).length_eq]
    _ = c.values.countP (!·.isError) := by
      rw [← List.countP_eq_length_filter]
      exact List.countP_congr fun v _ => by rw [hpresent]

/-- Some rows, those with the most frequent values first. -/
def byFrequency (c : Column) (rows : List Nat) : List Nat :=
  rows.mergeSort fun i j => decide (c.frequency (c.value j) ≤ c.frequency (c.value i))

theorem sorted_tally (c : Column) : (c.tally.mergeSort fun x y => decide (y.2 ≤ x.2)) =
    (c.byFrequency c.firstRows).map fun i => (c.value i, c.frequency (c.value i)) := by
  rw [tally_eq, byFrequency]
  exact (List.map_mergeSort (f := fun i => (c.value i, c.frequency (c.value i))) fun _ _ _ _ => rfl).symm

/-- Rows sorted by frequency: it does not increase, and where it stays the same the rows are in order. -/
theorem pairwise_byFrequency (c : Column) {rows : List Nat} (h : rows.Pairwise (· < ·)) :
    (c.byFrequency rows).Pairwise fun i j => c.frequency (c.value j) ≤ c.frequency (c.value i) ∧
      (c.frequency (c.value i) = c.frequency (c.value j) → i < j) := by
  have htrans (i j k : Nat) (hij : decide (c.frequency (c.value j) ≤ c.frequency (c.value i)) = true)
      (hjk : decide (c.frequency (c.value k) ≤ c.frequency (c.value j)) = true) :
      decide (c.frequency (c.value k) ≤ c.frequency (c.value i)) = true :=
    decide_eq_true ((of_decide_eq_true hjk).trans (of_decide_eq_true hij))
  have htotal (i j : Nat) : (decide (c.frequency (c.value j) ≤ c.frequency (c.value i)) ||
      decide (c.frequency (c.value i) ≤ c.frequency (c.value j))) = true := by
    simpa using Nat.le_total _ _
  have hsorted := List.pairwise_mergeSort htrans htotal rows
  rw [List.pairwise_iff_forall_sublist] at hsorted ⊢
  intro i j hij
  refine ⟨of_decide_eq_true (hsorted hij), fun heq => ?_⟩
  -- rows of one frequency are left as they are
  let p (k : Nat) : Bool := decide (c.frequency (c.value k) = c.frequency (c.value i))
  have hkept : (c.byFrequency rows).filter p = rows.filter p := by
    rw [byFrequency, filter_mergeSort htrans htotal]
    refine List.mergeSort_of_pairwise (List.pairwise_of_forall_mem_list fun k hk l hl => ?_)
    have hk : c.frequency (c.value k) = c.frequency (c.value i) := of_decide_eq_true (List.mem_filter.mp hk).2
    have hl : c.frequency (c.value l) = c.frequency (c.value i) := of_decide_eq_true (List.mem_filter.mp hl).2
    exact decide_eq_true (hl.trans hk.symm).le
  have hpair : [i, j].Sublist (rows.filter p) := by
    have hfilter : [i, j].filter p = [i, j] := by simp [p, heq]
    rw [← hkept, ← hfilter]
    exact hij.filter p
  exact List.pairwise_iff_forall_sublist.mp (h.filter p) hpair

/-- The rows `order` are the rows `firsts` in the order in which their values are counted. -/
structure Counted (c : Column) (firsts order : List Nat) : Prop where
  perm : order.Perm firsts
  descending : order.Pairwise fun i j => c.frequency (c.value j) ≤ c.frequency (c.value i)
  /-- Values that occur equally often stay in the order in which they are first seen. -/
  stable : order.Pairwise fun i j => c.frequency (c.value i) = c.frequency (c.value j) → i < j
  /-- All values that are no errors are counted. -/
  total : (order.map fun i => c.frequency (c.value i)).sum = c.values.countP (!·.isError)

theorem counted_byFrequency (c : Column) : c.Counted c.firstRows (c.byFrequency c.firstRows) := by
  have hperm : (c.byFrequency c.firstRows).Perm c.firstRows := List.mergeSort_perm _ _
  have hpairwise := c.pairwise_byFrequency c.firsts_firstRows.ascending
  exact {
    perm := hperm
    descending := hpairwise.imp And.left
    stable := hpairwise.imp And.right
    total := (hperm.map _).sum_eq.trans c.sum_frequency }

end Column

namespace Table

variable {t : Table} {column : String} {c : Column}

theorem uniqueValues_eq_ok (hc : t.column? column = some c) : t.uniqueValues column =
    .ok ⟨[.ofValues c.name (c.firstRows.map c.value)], c.firstRows.length⟩ := by
  have hvalues : c.tally.map (·.1) = c.firstRows.map c.value := by
    rw [Column.tally_eq, List.map_map]
    rfl
  rw [uniqueValues, require_eq_ok.mpr hc]
  dsimp only [bind, Except.bind]
  rw [hvalues]
  refine ofColumns_eq_ok (fun d hd => ?_) (List.nodup_singleton _) nofun
  rw [List.mem_singleton.mp hd]
  exact List.length_map ..

theorem valueCounts_eq_ok (hc : t.column? column = some c) : t.valueCounts column =
    .ok ⟨[.ofValues c.name ((c.byFrequency c.firstRows).map c.value),
      .ofValues (freshName "count" [c.name])
        ((c.byFrequency c.firstRows).map fun i => .ofNat (c.frequency (c.value i)))],
      (c.byFrequency c.firstRows).length⟩ := by
  have hnames : [c.name, freshName "count" [c.name]].Nodup :=
    List.nodup_cons.mpr ⟨mt List.mem_singleton.mp (freshName_ne "count" c.name).symm,
      List.nodup_singleton _⟩
  rw [valueCounts, require_eq_ok.mpr hc]
  dsimp only [bind, Except.bind]
  rw [c.sorted_tally, List.map_map, List.map_map]
  refine ofColumns_eq_ok (fun d hd => ?_) hnames nofun
  rw [List.mem_cons, List.mem_singleton] at hd
  obtain rfl | rfl := hd
  · exact List.length_map ..
  · exact List.length_map ..

/-- The distinct values of a column are those in the rows in which a key is first seen. To count them
always succeeds and gives the same values in the order of their counts, each beside its frequency. -/
theorem valueCounts_counted (hc : t.column? column = some c) :
    c.Firsts c.firstRows ∧
    t.uniqueValues column = .ok ⟨[.ofValues c.name (c.firstRows.map c.value)], c.firstRows.length⟩ ∧
    freshName "count" [c.name] ≠ c.name ∧
    ∃ order, c.Counted c.firstRows order ∧
      t.valueCounts column = .ok ⟨[.ofValues c.name (order.map c.value),
        .ofValues (freshName "count" [c.name]) (order.map fun i => .ofNat (c.frequency (c.value i)))],
        order.length⟩ :=
  ⟨c.firsts_firstRows, uniqueValues_eq_ok hc, freshName_ne "count" c.name, c.byFrequency c.firstRows,
    c.counted_byFrequency, valueCounts_eq_ok hc⟩

/-- A column with the name of counts. Zeros of either sign are one value and so are blanks, and the error
is none. -/
def ballots : Table :=
  ⟨[⟨"count", .mixed, [.text "b", .number 0.0, .text "a", .number (-0.0), .missing, .error .divByZero,
    .text "a", .missing]⟩], 8⟩

theorem valueCounts_counted_ballots : ballots.column? "count" = some ballots.columns[0] ∧
    ballots.uniqueValues "count" =
      .ok ⟨[⟨"count", .mixed, [.text "b", .number 0.0, .text "a", .missing]⟩], 4⟩ ∧
    ∃ order, ballots.columns[0].Counted [0, 1, 2, 4] order ∧
      ballots.valueCounts "count" = .ok ⟨[.ofValues "count" (order.map ballots.columns[0].value),
        .ofValues "count_2" (order.map fun i =>
          .ofNat (ballots.columns[0].frequency (ballots.columns[0].value i)))], order.length⟩ := by
  have hcolumn : ballots.column? "count" = some ballots.columns[0] := by decide
  have hfirst : ballots.columns[0].firstRows = [0, 1, 2, 4] := by decide +kernel
  have hfresh : freshName "count" [ballots.columns[0].name] = "count_2" := by decide +kernel
  obtain ⟨-, hunique, -, hcounts⟩ := valueCounts_counted hcolumn
  rw [hfirst] at hunique hcounts
  rw [hfresh] at hcounts
  exact ⟨hcolumn, hunique, hcounts⟩

end Table

end Tabular
