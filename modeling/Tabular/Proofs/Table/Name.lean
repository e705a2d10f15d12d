import Mathlib.Data.List.Induction
import Mathlib.Data.List.Nodup
import Mathlib.Data.List.Perm.Subperm
import Mathlib.Order.Bounds.Basic
import Tabular.Table.Name

/-!
# Fresh names are free

A fresh name is the name asked for if it is free, and otherwise has the least number behind it with
which it is. There is such a number: the forms of a name all differ, so not all of them are taken.
Hence names that are made one after another differ, and names that differ already stay as they are.
-/
namespace Tabular

variable {base : String} {taken : List String}

theorem natText_injective : Function.Injective natText := by
  intro m n h
  have hdigits : Nat.toDigits 10 m = Nat.toDigits 10 n := String.ofList_injective h
  rw [← Nat.ofDigitChars_ten_toDigits (n := m), hdigits, Nat.ofDigitChars_ten_toDigits]

theorem suffixed_injective (base : String) : Function.Injective (suffixed base) := by
  intro m n h
  have hlist := congrArg String.toList h
  simp only [suffixed, String.toList_append, List.append_cancel_left_eq] at hlist
  exact natText_injective (String.toList_injective hlist)

theorem suffixed_ne (base : String) (n : Nat) : suffixed base n ≠ base := by
  intro h
  have hlist := congrArg String.toList h
  simp [suffixed] at hlist

/-- A name is taken with its forms up to a number only among at least as many names. -/
theorem le_length_of_taken {n : Nat} (hbase : base ∈ taken)
    (hforms : ∀ j, 2 ≤ j → j ≤ n → suffixed base j ∈ taken) : n ≤ taken.length := by
  let forms := (List.range (n - 1)).map fun i => suffixed base (i + 2)
  have hnodup : (base :: forms).Nodup := by
    refine List.nodup_cons.mpr ⟨fun hmem => ?_, List.nodup_range.map fun i j h => ?_⟩
    · obtain ⟨i, -, hi⟩ := List.mem_map.mp hmem
      exact suffixed_ne base (i + 2) hi
    · simpa using suffixed_injective base h
  have hsub : base :: forms ⊆ taken := by
    refine List.cons_subset.mpr ⟨hbase, fun name hname => ?_⟩
    obtain ⟨i, hi, rfl⟩ := List.mem_map.mp hname
    have hlt := List.mem_range.mp hi
    exact hforms (i + 2) (by omega) (by omega)
  have hle := (hnodup.subperm hsub).length_le
  simp only [forms, List.length_cons, List.length_map, List.length_range] at hle
  omega

/-- The first free form of a name: itself, or else the one with the least number. -/
inductive FirstFree (base : String) (taken : List String) : String → Prop
  | itself (hfree : base ∉ taken) : FirstFree base taken base
  | numbered {k : Nat} (hbase : base ∈ taken)
      (hleast : IsLeast {k | 2 ≤ k ∧ suffixed base k ∉ taken} k) :
      FirstFree base taken (suffixed base k)

/-- A fresh name is the first free form of the name asked for. -/
theorem firstFree_freshName (base : String) (taken : List String) :
    FirstFree base taken (freshName base taken) := by
  unfold freshName
  split
  next hbase =>
    rw [List.find?_map]
    cases hfind : (List.range (taken.length + 1)).find?
        ((fun name => decide (name ∉ taken)) ∘ fun i => suffixed base (i + 2)) with
    | none =>
      -- were all candidates taken, there would be more of them than names
      have hforms (j : Nat) (hj : 2 ≤ j) (hle : j ≤ taken.length + 2) :
          suffixed base j ∈ taken := by
        have hmem : j - 2 ∈ List.range (taken.length + 1) := List.mem_range.mpr (by omega)
        simpa [Nat.sub_add_cancel hj] using List.find?_eq_none.mp hfind _ hmem
      have hle := le_length_of_taken hbase hforms
      omega
    | some i =>
      obtain ⟨hfree, -, hbelow⟩ := List.find?_range_eq_some.mp hfind
      refine .numbered hbase ⟨⟨Nat.le_add_left 2 i, by simpa using hfree⟩, fun j hj => ?_⟩
      obtain ⟨htwo, hfree⟩ := hj
      by_contra hlt
      have htaken := hbelow (j - 2) (by omega)
      simp [Nat.sub_add_cancel htwo, hfree] at htaken
  next hbase => exact .itself hbase

theorem FirstFree.not_mem {name : String} (h : FirstFree base taken name) : name ∉ taken := by
  cases h with
  | itself hfree => exact hfree
  | numbered _ hleast => exact hleast.1.2

/-- There is one first free form only. -/
theorem FirstFree.unique {name name' : String} (h : FirstFree base taken name)
    (h' : FirstFree base taken name') : name = name' := by
  cases h with
  | itself hfree =>
    cases h' with
    | itself _ => rfl
    | numbered hbase _ => exact absurd hbase hfree
  | numbered hbase hleast =>
    cases h' with
    | itself hfree => exact absurd hbase hfree
    | numbered _ hleast' => rw [hleast.unique hleast']

/-- A fresh name is none of those taken. -/
theorem freshName_not_mem (base : String) (taken : List String) : freshName base taken ∉ taken :=
  (firstFree_freshName base taken).not_mem

theorem freshName_ne (base name : String) : freshName base [name] ≠ name :=
  mt List.mem_singleton.mpr (freshName_not_mem base [name])

/-- A name that is free stays as it is. -/
theorem freshName_of_not_mem (h : base ∉ taken) : freshName base taken = base := if_neg h

/-- A name that is taken gets the least number with which it is free. -/
theorem freshName_of_mem (h : base ∈ taken) :
    ∃ k, IsLeast {k | 2 ≤ k ∧ suffixed base k ∉ taken} k ∧ freshName base taken = suffixed base k := by
  have hname := firstFree_freshName base taken
  generalize freshName base taken = name at hname ⊢
  cases hname with
  | itself hfree => exact absurd h hfree
  | numbered _ hleast => exact ⟨_, hleast, rfl⟩

/-- A fresh name is the name asked for with at most a number behind it. -/
theorem freshName_eq_or_suffixed (base : String) (taken : List String) :
    freshName base taken = base ∨ ∃ n, freshName base taken = suffixed base n := by
  by_cases h : base ∈ taken
  · obtain ⟨k, -, hname⟩ := freshName_of_mem h
    exact .inr ⟨k, hname⟩
  · exact .inl (freshName_of_not_mem h)

theorem freshNames_append (front : List String) (base : String) :
    freshNames (front ++ [base]) = freshNames front ++ [freshName base (freshNames front)] := by
  rw [freshNames, List.foldl_append]
  rfl

/-- Names that all differ stay as they are. -/
theorem freshNames_of_nodup {names : List String} (h : names.Nodup) : freshNames names = names := by
  induction names using List.reverseRecOn with
  | nil => rfl
  | append_singleton front name ih =>
    have hfree : name ∉ front := List.disjoint_singleton.mp (List.disjoint_of_nodup_append h)
    rw [freshNames_append, ih h.of_append_left, freshName_of_not_mem hfree]

/-- Each name is the one asked for in its turn, made fresh among the names before it. -/
def InTurn (bases names : List String) : Prop :=
  ∀ j : Nat, names[j]? = bases[j]?.map fun base => freshName base (names.take j)

namespace InTurn

variable {bases names : List String}

theorem length_eq (h : InTurn bases names) : names.length = bases.length := by
  apply Nat.le_antisymm
  · rw [← List.getElem?_eq_none_iff, h bases.length, List.getElem?_eq_none le_rfl]
    rfl
  · rw [← List.getElem?_eq_none_iff, ← Option.map_eq_none_iff, ← h names.length,
      List.getElem?_eq_none le_rfl]

theorem concat (h : InTurn bases names) (base : String) :
    InTurn (bases ++ [base]) (names ++ [freshName base names]) := by
  intro j
  have hlength := h.length_eq
  rcases Nat.lt_trichotomy j bases.length with hj | hj | hj
  · rw [List.getElem?_append_left (by omega), List.getElem?_append_left hj,
      List.take_append_of_le_length (by omega)]
    exact h j
  · rw [hj, ← hlength, List.getElem?_concat_length, List.take_left, hlength,
      List.getElem?_concat_length]
    rfl
  · rw [List.getElem?_eq_none (by simp; omega), List.getElem?_eq_none (by simp; omega)]
    rfl

/-- Names made one after another differ. -/
theorem nodup (h : InTurn bases names) : names.Nodup := by
  refine List.pairwise_iff_getElem.mpr fun i j hi hj hlt heq => ?_
  have hname := (h j).symm.trans (List.getElem?_eq_getElem hj)
  obtain ⟨base, -, hbase⟩ := Option.map_eq_some_iff.mp hname
  apply freshName_not_mem base (names.take j)
  rw [hbase, ← heq]
  exact List.mem_take_iff_getElem.mpr ⟨i, by omega, rfl⟩

end InTurn

theorem inTurn_freshNames (bases : List String) : InTurn bases (freshNames bases) := by
  induction bases using List.reverseRecOn with
  | nil => exact fun j => rfl
  | append_singleton front base ih =>
    rw [freshNames_append]
    exact ih.concat base

theorem nodup_freshNames (bases : List String) : (freshNames bases).Nodup :=
  (inTurn_freshNames bases).nodup

@[simp] theorem length_freshNames (bases : List String) : (freshNames bases).length = bases.length :=
  (inTurn_freshNames bases).length_eq

end Tabular
