import Mathlib.Algebra.Group.Nat.Defs
import Mathlib.Logic.Relation
import Tabular.Proofs.Csv.Reading
import Tabular.Summary

/-!
# The search for a fresh name

A fresh name is searched for one number after another, and nothing ends the search but a free form of
the name or the last number of a signed counter of 32 bits. It ends at a free form, the first there is,
unless there are nearly as many names as the counter has numbers. Names that are made one after another
differ, whatever numbers the names asked for have behind them already. The names of a header are made so,
and those of a table of summaries, which for that reason can always be built.
-/
namespace Tabular

/-- Where the search for a free name is: at the name asked for, at its form with a number, or done. -/
inductive NameSearch where
  | asked
  | trying (n : Nat)
  | found (name : String)
  deriving DecidableEq, Repr

namespace NameSearch

variable {base name : String} {taken : List String} {s s' : NameSearch}

def maxNumber : Nat := 2 ^ 31 - 1

/-- One step of the search. The counter is moved on before a form is looked up, so that the form with
the greatest number never is. -/
def step (base : String) (taken : List String) : NameSearch → Option NameSearch
  | asked => some (if base ∈ taken then trying 2 else found base)
  | trying n =>
    if n < maxNumber then
      some (if suffixed base n ∈ taken then trying (n + 1) else found (suffixed base n))
    else none
  | found _ => none

/-- Some number of steps of the search lead from one state to another. -/
def Reaches (base : String) (taken : List String) : NameSearch → NameSearch → Prop :=
  Relation.ReflTransGen fun s s' => s.step base taken = some s'

/-- What is known where the search is: the forms that it has left behind are taken. -/
def Knows (base : String) (taken : List String) : NameSearch → Prop
  | asked => True
  | trying n => base ∈ taken ∧ 2 ≤ n ∧ ∀ j, 2 ≤ j → j < n → suffixed base j ∈ taken
  | found name => FirstFree base taken name

theorem Knows.step (h : s.Knows base taken) (hstep : s.step base taken = some s') :
    s'.Knows base taken := by
  cases s with
  | asked =>
    obtain rfl := Option.some.inj hstep
    split
    next hbase => exact ⟨hbase, le_rfl, fun j htwo hlt => absurd htwo (Nat.not_le.mpr hlt)⟩
    next hfree => exact .itself hfree
  | trying n =>
    obtain ⟨hbase, htwo, hbelow⟩ := h
    obtain ⟨-, hstep⟩ := Option.ite_none_right_eq_some.mp hstep
    obtain rfl := Option.some.inj hstep
    split
    next htaken =>
      refine ⟨hbase, Nat.le_succ_of_le htwo, fun j hj hlt => ?_⟩
      obtain hlt | rfl := Nat.lt_succ_iff_lt_or_eq.mp hlt
      · exact hbelow j hj hlt
      · exact htaken
    next hfree =>
      refine .numbered hbase ⟨⟨htwo, hfree⟩, fun j hj => ?_⟩
      by_contra hlt
      exact hj.2 (hbelow j hj.1 (Nat.not_le.mp hlt))
  | found name => cases hstep

theorem Knows.reaches (h : s.Knows base taken) (hreaches : Reaches base taken s s') :
    s'.Knows base taken := by
  induction hreaches with
  | refl => exact h
  | tail _ hstep ih => exact ih.step hstep

/-- From every number up to the least free one the search reaches it, if the counter does. -/
theorem reaches_least {n k : Nat} (hleast : IsLeast {k | 2 ≤ k ∧ suffixed base k ∉ taken} k)
    (hmax : k < maxNumber) (htwo : 2 ≤ n) (hle : n ≤ k) :
    Reaches base taken (trying n) (found (suffixed base k)) := by
  induction hle using Nat.decreasingInduction with
  | self =>
    have hstep : (trying k).step base taken = some (found (suffixed base k)) := by
      rw [step, if_pos hmax, if_neg hleast.1.2]
    exact .single hstep
  | of_succ m hlt ih =>
    have htaken : suffixed base m ∈ taken := by
      by_contra hfree
      exact absurd (hleast.2 ⟨htwo, hfree⟩) (Nat.not_le.mpr hlt)
    have hstep : (trying m).step base taken = some (trying (m + 1)) := by
      rw [step, if_pos (hlt.trans hmax), if_pos htaken]
    exact .head hstep (ih (Nat.le_succ_of_le htwo))

/-- The least number with which a name is free is at most one more than there are names. -/
theorem least_le {k : Nat} (hbase : base ∈ taken)
    (hleast : IsLeast {k | 2 ≤ k ∧ suffixed base k ∉ taken} k) : k ≤ taken.length + 1 := by
  have hle : k - 1 ≤ taken.length := by
    refine le_length_of_taken hbase fun j htwo hj => ?_
    by_contra hfree
    have hk := hleast.2 ⟨htwo, hfree⟩
    have htwo' := hleast.1.1
    omega
  omega

theorem reaches_firstFree (hlength : taken.length + 1 < maxNumber) (h : FirstFree base taken name) :
    Reaches base taken asked (found name) := by
  cases h with
  | itself hfree =>
    have hstep : asked.step base taken = some (found base) := by rw [step, if_neg hfree]
    exact .single hstep
  | numbered hbase hleast =>
    have hstep : asked.step base taken = some (trying 2) := by rw [step, if_pos hbase]
    have hmax := (least_le hbase hleast).trans_lt hlength
    exact .head hstep (reaches_least hleast hmax le_rfl hleast.1.1)

/-- The search stops, and at the fresh name only. -/
theorem reaches_found_iff (hlength : taken.length + 1 < maxNumber) :
    Reaches base taken asked (found name) ↔ name = freshName base taken := by
  have hfresh := firstFree_freshName base taken
  constructor
  · intro h
    have hasked : asked.Knows base taken := trivial
    have hfirst : FirstFree base taken name := hasked.reaches h
    exact hfirst.unique hfresh
  · rintro rfl
    exact reaches_firstFree hlength hfresh

end NameSearch

theorem Csv.inTurn_headerNames (fields : List String) :
    InTurn (fields.mapIdx headerBase) (headerNames fields) := by
  intro j
  rw [getElem?_headerNames, List.getElem?_mapIdx, Option.map_map]
  rfl

namespace ColumnSummary

theorem inTurn_addTo {bases : List String} {columns : List Column}
    (h : InTurn bases (columns.map (·.name))) (summaries : List ColumnSummary) :
    InTurn (bases ++ summaries.map (·.column)) ((addTo columns summaries).map (·.name)) := by
  induction summaries generalizing bases columns with
  | nil => rwa [List.map_nil, List.append_nil]
  | cons s rest ih =>
    have hadded := h.concat s.column
    rw [List.map_cons, List.append_cons]
    refine ih ?_
    rwa [List.map_append]

theorem length_addTo {columns : List Column} (h : ∀ c ∈ columns, c.values.length = labels.length)
    (summaries : List ColumnSummary) :
    ∀ c ∈ addTo columns summaries, c.values.length = labels.length := by
  induction summaries generalizing columns with
  | nil => exact h
  | cons s rest ih =>
    refine ih fun c hc => ?_
    obtain hc | hc := List.mem_append.mp hc
    · exact h c hc
    · rw [List.mem_singleton.mp hc]
      rfl

/-- Summaries always make a table, under names that are made one after another. -/
theorem exists_toTable (summaries : List ColumnSummary) :
    ∃ t, toTable summaries = .ok t ∧ InTurn ("stat" :: summaries.map (·.column)) t.names := by
  have hstat : InTurn ["stat"] ([Column.ofValues "stat" (labels.map Value.text)].map (·.name)) :=
    inTurn_freshNames ["stat"]
  have hnames := inTurn_addTo hstat summaries
  refine ⟨_, Table.ofColumns_eq_ok (length_addTo (fun c hc => ?_) summaries) hnames.nodup
    fun hnil => ?_, hnames⟩
  · rw [List.mem_singleton.mp hc]
    rfl
  · have hlength := hnames.length_eq
    rw [hnil] at hlength
    cases hlength

end ColumnSummary

/-- Among fewer names than the counter can number the search for a fresh name ends, with that name and no
other. The name is free. It is the one asked for if that is free, and otherwise has the least number from
two on behind it with which it is. Names that are made one after another differ, and the names of a header
and those of a table of summaries are made so. -/
theorem freshName_least (base : String) {taken : List String} (h : taken.length < 2 ^ 31 - 2) :
    (∀ name, NameSearch.Reaches base taken .asked (.found name) ↔ name = freshName base taken) ∧
    freshName base taken ∉ taken ∧
    (base ∉ taken → freshName base taken = base) ∧
    (base ∈ taken → ∃ k, IsLeast {k | 2 ≤ k ∧ suffixed base k ∉ taken} k ∧
      freshName base taken = suffixed base k) ∧
    (∀ bases names, InTurn bases names → names.Nodup) ∧
    (∀ fields, InTurn (fields.mapIdx Csv.headerBase) (Csv.headerNames fields)) ∧
    ∀ summaries, ∃ t, ColumnSummary.toTable summaries = .ok t ∧
      InTurn ("stat" :: summaries.map (·.column)) t.names := by
  have hlength : taken.length + 1 < NameSearch.maxNumber := by
    rw [NameSearch.maxNumber]
    omega
  exact ⟨fun name => NameSearch.reaches_found_iff hlength, freshName_not_mem base taken,
    freshName_of_not_mem, freshName_of_mem, fun _ _ hnames => hnames.nodup, Csv.inTurn_headerNames,
    ColumnSummary.exists_toTable⟩

def boxes : List String := ["box", "box_2", "box_4", "box_2_2"]

theorem freshName_least_boxes : boxes.length < 2 ^ 31 - 2 ∧ "box" ∈ boxes ∧ "box_3" ∉ boxes ∧
    NameSearch.Reaches "box" boxes .asked (.found "box_3") ∧
    IsLeast {k | 2 ≤ k ∧ suffixed "box" k ∉ boxes} 3 ∧ freshName "box_3" boxes = "box_3" ∧
    freshNames ["box_2", "box", "box", "box_2"] = ["box_2", "box", "box_3", "box_2_2"] ∧
    ["box_2", "box", "box_3", "box_2_2"].Nodup := by
  have hlength : boxes.length < 2 ^ 31 - 2 := by decide
  have hbase : "box" ∈ boxes := by decide
  have hfree : "box_3" ∉ boxes := by decide
  have hfresh : freshName "box" boxes = "box_3" := by decide +kernel
  have hsuffixed : suffixed "box" 3 = "box_3" := by decide +kernel
  have hnames : freshNames ["box_2", "box", "box", "box_2"] = ["box_2", "box", "box_3", "box_2_2"] := by
    decide +kernel
  obtain ⟨hreaches, -, -, hleast, hinTurn, -, -⟩ := freshName_least "box" hlength
  obtain ⟨-, -, hkept, -⟩ := freshName_least "box_3" hlength
  obtain ⟨k, hk, hname⟩ := hleast hbase
  rw [hfresh, ← hsuffixed] at hname
  obtain rfl := suffixed_injective "box" hname
  exact ⟨hlength, hbase, hfree, (hreaches "box_3").mpr hfresh.symm, hk, hkept hfree, hnames,
    hinTurn _ _ (hnames ▸ inTurn_freshNames ["box_2", "box", "box", "box_2"])⟩

end Tabular
