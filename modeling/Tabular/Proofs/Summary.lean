import Tabular.Proofs.Number.Interpolation
import Tabular.Proofs.Table.Valid
import Tabular.Summary

/-!
# Order statistics

The least and the greatest number of a column bound all its numbers, and the ranks next to the position
of a quartile are ranks of numbers. Everything is computed in doubles, the positions too, but positions
turn out to be in quarters, with the quarters behind a rank exact. So a quartile lies between the two
numbers nearest to its position, and the quartiles are in order, as long as neighbours in the column
are no further apart than the greatest double. A quartile between neighbours that are is infinite, and
is then greater than the greatest number.
-/
namespace Tabular

namespace Spread

open Number

variable {count i j k l : Nat} {share share' : Float} {sorted : List Float}

/-- The shares of the way through ascending numbers at which the quartiles are. -/
def shares : List Float := [0.25, 0.5, 0.75]

/-- A share of the way that is a number of quarters, of one to three. -/
structure Quarters (share : Float) (k : Nat) : Prop where
  finite : share.isFinite = true
  eq : toRat share = k / 4
  le : k ≤ 3

theorem quarters_shares : Quarters 0.25 1 ∧ Quarters 0.5 2 ∧ Quarters 0.75 3 := by
  have hrat {x : Float} {m : Nat} {e : Int} (hm : 0 < m) (hparts : parts x = .finite .positive m e hm) :
      toRat x = m * 2 ^ e := (toRat_of_finite hparts).trans (scaled_positive m e)
  refine ⟨⟨rfl, ?_, by decide⟩, ⟨rfl, ?_, by decide⟩, ⟨rfl, ?_, by decide⟩⟩
  · rw [hrat (m := 2 ^ 52) (e := -54) (by decide) rfl]
    norm_num
  · rw [hrat (m := 2 ^ 52) (e := -53) (by decide) rfl]
    norm_num
  · rw [hrat (m := 3 * 2 ^ 51) (e := -53) (by decide) rfl]
    norm_num

theorem exists_quarters (h : share ∈ shares) : ∃ k, Quarters share k := by
  obtain ⟨hlower, hhalf, hupper⟩ := quarters_shares
  simp only [shares, List.mem_cons, List.not_mem_nil, or_false] at h
  obtain rfl | rfl | rfl := h
  · exact ⟨1, hlower⟩
  · exact ⟨2, hhalf⟩
  · exact ⟨3, hupper⟩

/-- The position of a share among a count of numbers is a number of quarters, of which there are no
more than up to the last number. -/
structure Position (count : Nat) (share : Float) (i : Nat) : Prop where
  finite : (position count share).isFinite = true
  eq : toRat (position count share) = i / 4
  le : i ≤ 4 * (count - 1)

theorem exists_position (h : Quarters share k) (hcount : count < 2 ^ 64) :
    ∃ i, Position count share i := by
  have hword : count - 1 < 2 ^ 64 := by omega
  have hfinite := isFinite_ofNat hword
  have hlast := rounds_ofNat hword
  have hnonneg := hlast.toRat_nonneg hfinite (Nat.cast_nonneg _)
  have hmultiple : Rounds ((count - 1 : Nat) * 2 ^ (0 : Int)) (Float.ofNat (count - 1)) := by
    rwa [zpow_zero, MulOneClass.mul_one]
  -- the number of the last one may be rounded up, but three quarters of it are not too many
  obtain ⟨y, hy, hle, hbelow⟩ := hmultiple.exists_below (by decide) hfinite
  rw [zpow_zero, MulOneClass.mul_one] at hle
  have hposition := rounds_mul hfinite h.finite
  have hk : toRat share ≤ 3 / 4 := by
    have hle : (k : ℚ) ≤ 3 := by exact_mod_cast h.le
    rw [h.eq]
    linarith
  have hmem := hposition.mem_Icc (y := 0.0) rfl hy
    (by rw [toRat_zero, h.eq]; positivity)
    ((mul_le_mul_of_nonneg_left hk hnonneg).trans (by linarith))
  obtain ⟨i, hi⟩ : ∃ i : Nat, toRat (position count share) = i / 4 := by
    have hquarter : (2 : ℚ) ^ (-2 : Int) = 1 / 4 := by norm_num
    obtain ⟨n, hn⟩ := hmultiple.exists_multiple hfinite
    have hproduct : Rounds ((n * k : Nat) * 2 ^ (-2 : Int)) (position count share) := by
      have heq : ((n * k : Nat) : ℚ) * 2 ^ (-2 : Int) = toRat (Float.ofNat (count - 1)) * toRat share := by
        rw [hn, h.eq, hquarter, zpow_zero]
        push_cast
        ring
      rwa [heq]
    obtain ⟨i, hi⟩ := hproduct.exists_multiple hmem.1
    exact ⟨i, by rw [hi, hquarter]; ring⟩
  refine ⟨i, hmem.1, hi, ?_⟩
  have hlast' : (i : ℚ) / 4 ≤ (count - 1 : Nat) := hi ▸ hmem.2.2.trans hle
  have hlast'' : (i : ℚ) ≤ 4 * (count - 1 : Nat) := by linarith
  exact_mod_cast hlast''

theorem Position.mono (h : Quarters share k) (h' : Quarters share' l) (hkl : k ≤ l)
    (hcount : count < 2 ^ 64) (hi : Position count share i) (hj : Position count share' j) : i ≤ j := by
  have hword : count - 1 < 2 ^ 64 := by omega
  have hfinite := isFinite_ofNat hword
  have hnonneg := (rounds_ofNat hword).toRat_nonneg hfinite (Nat.cast_nonneg _)
  have hshares : toRat share ≤ toRat share' := by
    have hle : (k : ℚ) ≤ l := by exact_mod_cast hkl
    rw [h.eq, h'.eq]
    linarith
  have hle := (rounds_mul hfinite h.finite).toRat_mono (rounds_mul hfinite h'.finite) hi.finite hj.finite
    (mul_le_mul_of_nonneg_left hshares hnonneg)
  have hle : (i : ℚ) ≤ j := by
    have hle : (i : ℚ) / 4 ≤ j / 4 := hi.eq ▸ hj.eq ▸ hle
    linarith
  exact_mod_cast hle

theorem Position.ranks (h : Position count share i) :
    lowerRank count share = i / 4 ∧ upperRank count share = (i + 3) / 4 :=
  whole_of_quarters h.finite h.eq

/-- The ranks at a position are those of numbers. -/
theorem Position.ranks_lt (h : Position count share i) (hcount : 0 < count) :
    lowerRank count share < count ∧ upperRank count share < count := by
  have hle := h.le
  rw [h.ranks.1, h.ranks.2]
  omega

/-- Behind the lower rank the position is in the quarters that are over, exactly. -/
theorem Position.fraction (h : Position count share i) (hcount : count < 2 ^ 64) :
    IsFraction (position count share - Float.ofNat (lowerRank count share)) ∧
      toRat (position count share - Float.ofNat (lowerRank count share)) = (i % 4 : Nat) / 4 := by
  obtain ⟨hlower, hhalf, hupper⟩ := quarters_shares
  have hword : i / 4 < 2 ^ 64 := by
    have hle := h.le
    omega
  have hrounds := rounds_sub h.finite (isFinite_ofNat hword)
  have hsplit : (i : ℚ) / 4 - (i / 4 : Nat) = (i % 4 : Nat) / 4 := by
    have hdivision : (i : ℚ) = 4 * (i / 4 : Nat) + (i % 4 : Nat) := by
      exact_mod_cast (Nat.div_add_mod i 4).symm
    linarith
  rw [h.eq, toRat_ofNat_of_quarters h.finite h.eq hword, hsplit] at hrounds
  rw [h.ranks.1]
  obtain ⟨y, hy, hrat⟩ : ∃ y : Float, y.isFinite = true ∧ toRat y = (i % 4 : Nat) / 4 := by
    have hlt : i % 4 < 4 := Nat.mod_lt _ (by decide)
    interval_cases i % 4
    · exact ⟨0.0, rfl, by rw [toRat_zero]; norm_num⟩
    · exact ⟨0.25, hlower.finite, hlower.eq⟩
    · exact ⟨0.5, hhalf.finite, hhalf.eq⟩
    · exact ⟨0.75, hupper.finite, hupper.eq⟩
  have hle : ((i % 4 : Nat) : ℚ) ≤ 3 := by exact_mod_cast Nat.le_of_lt_succ (Nat.mod_lt i (by decide))
  rw [← hrat] at hrounds
  have hmem := hrounds.mem_Icc hy hy le_rfl le_rfl
  have heq := (hrounds.toRat_eq hy).trans hrat
  exact ⟨⟨hmem.1, by rw [heq]; positivity, by rw [heq]; linarith⟩, heq⟩

/-- Finite numbers in ascending order, as many as a machine can count. -/
structure Ascending (sorted : List Float) : Prop where
  finite : ∀ x ∈ sorted, x.isFinite = true
  le : sorted.Pairwise fun x y => toRat x ≤ toRat y
  count : sorted.length < 2 ^ 64

theorem Ascending.isFinite_getD (h : Ascending sorted) (hi : i < sorted.length) :
    (sorted.getD i 0.0).isFinite = true := by
  rw [List.getD_eq_getElem sorted 0.0 hi]
  exact h.finite _ (List.getElem_mem hi)

theorem Ascending.getD_mono (h : Ascending sorted) (hij : i ≤ j) (hj : j < sorted.length) :
    toRat (sorted.getD i 0.0) ≤ toRat (sorted.getD j 0.0) := by
  have hi : i < sorted.length := hij.trans_lt hj
  rw [List.getD_eq_getElem sorted 0.0 hi, List.getD_eq_getElem sorted 0.0 hj]
  obtain rfl | hlt := hij.eq_or_lt
  · exact le_rfl
  · exact List.pairwise_iff_getElem.mp h.le i j hi hj hlt

theorem Position.lt (h : Position count share i) (hpos : 0 < count) : (i + 3) / 4 < count := by
  have hle := h.le
  omega

theorem Position.gap_eq (h : Position sorted.length share i) :
    gap sorted share = sorted.getD ((i + 3) / 4) 0.0 - sorted.getD (i / 4) 0.0 := by
  rw [gap, h.ranks.1, h.ranks.2]

theorem Position.quantile_eq (h : Position sorted.length share i) :
    quantile sorted share = sorted.getD (i / 4) 0.0 +
      (sorted.getD ((i + 3) / 4) 0.0 - sorted.getD (i / 4) 0.0) *
        (position sorted.length share - Float.ofNat (lowerRank sorted.length share)) := by
  rw [← h.gap_eq, quantile, h.ranks.1]

theorem Ascending.spans (h : Ascending sorted) (hi : Position sorted.length share i)
    (hpos : 0 < sorted.length) (hgap : (gap sorted share).isFinite = true) :
    Spans (sorted.getD (i / 4) 0.0) (sorted.getD ((i + 3) / 4) 0.0) where
  lower := h.isFinite_getD (by have hlt := hi.lt hpos; omega)
  upper := h.isFinite_getD (hi.lt hpos)
  le := h.getD_mono (by omega) (hi.lt hpos)
  gap := hi.gap_eq ▸ hgap

/-- A quantile lies between the two numbers nearest to its position. -/
theorem Ascending.quantile_mem (h : Ascending sorted) (hi : Position sorted.length share i)
    (hpos : 0 < sorted.length) (hgap : (gap sorted share).isFinite = true) :
    (quantile sorted share).isFinite = true ∧
      toRat (sorted.getD (i / 4) 0.0) ≤ toRat (quantile sorted share) ∧
      toRat (quantile sorted share) ≤ toRat (sorted.getD ((i + 3) / 4) 0.0) := by
  rw [hi.quantile_eq]
  exact (h.spans hi hpos hgap).interpolation_mem (hi.fraction h.count).1

/-- Quantiles are in the order of their positions. -/
theorem Ascending.quantile_mono (h : Ascending sorted) (hi : Position sorted.length share i)
    (hj : Position sorted.length share' j) (hij : i ≤ j) (hpos : 0 < sorted.length)
    (hgap : (gap sorted share).isFinite = true) (hgap' : (gap sorted share').isFinite = true) :
    toRat (quantile sorted share) ≤ toRat (quantile sorted share') := by
  have hmem := h.quantile_mem hi hpos hgap
  have hmem' := h.quantile_mem hj hpos hgap'
  by_cases hapart : (i + 3) / 4 ≤ j / 4
  · have hlt := hj.lt hpos
    exact hmem.2.2.trans ((h.getD_mono hapart (by omega)).trans hmem'.2.1)
  · -- both positions are between the same numbers, and the second one is not at the lower of them
    have hlower : i / 4 = j / 4 := by omega
    obtain ⟨hfraction, heq⟩ := hi.fraction h.count
    obtain ⟨hfraction', heq'⟩ := hj.fraction h.count
    have hle : ((i % 4 : Nat) : ℚ) ≤ (j % 4 : Nat) := by exact_mod_cast (by omega : i % 4 ≤ j % 4)
    have hupper : (i + 3) / 4 = (j + 3) / 4 := by omega
    have hspans := h.spans hi hpos hgap
    rw [hi.quantile_eq, hj.quantile_eq, ← hlower, ← hupper]
    exact hspans.interpolation_mono hfraction hfraction' (by rw [heq, heq']; linarith)

/-- A quantile between numbers that are too far apart is infinite. -/
theorem Ascending.quantile_of_not_isFinite (h : Ascending sorted)
    (hi : Position sorted.length share i) (hpos : 0 < sorted.length)
    (hgap : (gap sorted share).isFinite = false) :
    parts (quantile sorted share) = .infinity .positive := by
  have hlt := hi.lt hpos
  have hlower := h.isFinite_getD (i := i / 4) (by omega)
  have hupper := h.isFinite_getD hlt
  have hle := h.getD_mono (show i / 4 ≤ (i + 3) / 4 by omega) hlt
  obtain ⟨-, heq⟩ := hi.fraction h.count
  rw [hi.quantile_eq]
  rw [hi.gap_eq] at hgap
  refine interpolation_of_not_isFinite hlower hupper hle hgap ?_
  have hne : i % 4 ≠ 0 := by
    intro hzero
    have hsame : (i + 3) / 4 = i / 4 := by omega
    have hrounds := rounds_sub hlower hlower
    rw [sub_self, ← toRat_zero] at hrounds
    have hfinite := (hrounds.mem_Icc (y := 0.0) (z := 0.0) rfl rfl le_rfl le_rfl).1
    rw [hsame, hfinite] at hgap
    cases hgap
  have hcast : (0 : ℚ) < (i % 4 : Nat) := by exact_mod_cast Nat.pos_of_ne_zero hne
  rw [heq]
  linarith

/-- The statistics of position are in order. -/
structure Ordered (s : Spread) : Prop where
  least : s.least.toFloat ≤ s.lowerQuartile
  lower : s.lowerQuartile ≤ s.median
  upper : s.median ≤ s.upperQuartile
  greatest : s.upperQuartile ≤ s.greatest.toFloat

theorem Ordered.quantile_le {least : Double} {ds : List Double} (h : (ofSorted least ds).Ordered)
    (hshare : share ∈ shares) :
    quantile (ds.map Double.toFloat) share ≤ (ofSorted least ds).greatest.toFloat := by
  simp only [shares, List.mem_cons, List.not_mem_nil, or_false] at hshare
  obtain rfl | rfl | rfl := hshare
  · exact double_le_trans h.lower (double_le_trans h.upper h.greatest)
  · exact double_le_trans h.upper h.greatest
  · exact h.greatest

section

variable {least : Double} {rest : List Double}

theorem greatest_eq_getElem (least : Double) (rest : List Double) :
    (ofSorted least (least :: rest)).greatest = (least :: rest)[rest.length] := by
  have hlast : (ofSorted least (least :: rest)).greatest = (least :: rest).getLastD least := rfl
  rw [hlast, List.getLastD_eq_getLast?, List.getLast?_eq_getElem?, List.length_cons, Nat.add_sub_cancel,
    List.getElem?_eq_getElem (Nat.lt_succ_self _), Option.getD_some]

theorem greatest_mem (least : Double) (rest : List Double) :
    (ofSorted least (least :: rest)).greatest ∈ least :: rest := by
  rw [greatest_eq_getElem]
  exact List.getElem_mem _

theorem Ascending.isFinite_greatest (h : Ascending ((least :: rest).map Double.toFloat)) :
    (ofSorted least (least :: rest)).greatest.toFloat.isFinite = true :=
  h.finite _ (List.mem_map_of_mem (greatest_mem least rest))

/-- The first of ascending numbers is the least of them, the last one the greatest. -/
theorem Ascending.getD_mem_Icc (h : Ascending ((least :: rest).map Double.toFloat))
    (hi : i < ((least :: rest).map Double.toFloat).length) :
    toRat least.toFloat ≤ toRat (((least :: rest).map Double.toFloat).getD i 0.0) ∧
      toRat (((least :: rest).map Double.toFloat).getD i 0.0) ≤
        toRat (ofSorted least (least :: rest)).greatest.toFloat := by
  have hlength : ((least :: rest).map Double.toFloat).length = rest.length + 1 := List.length_map _
  have hlast : (ofSorted least (least :: rest)).greatest.toFloat =
      ((least :: rest).map Double.toFloat).getD rest.length 0.0 := by
    rw [greatest_eq_getElem, List.getD_eq_getElem _ _ (by omega), List.getElem_map]
  have hfirst := h.getD_mono (Nat.zero_le i) hi
  rw [List.map_cons, List.getD_cons_zero, ← List.map_cons] at hfirst
  rw [hlast]
  exact ⟨hfirst, h.getD_mono (by omega) (by omega)⟩

theorem Ascending.bounds (h : Ascending ((least :: rest).map Double.toFloat)) {x : Double}
    (hx : x ∈ least :: rest) : least.toFloat ≤ x.toFloat ∧
      x.toFloat ≤ (ofSorted least (least :: rest)).greatest.toFloat := by
  have hxs := List.mem_map_of_mem (f := Double.toFloat) hx
  obtain ⟨i, hi, heq⟩ := List.getElem_of_mem hxs
  have hmem := h.getD_mem_Icc hi
  rw [List.getD_eq_getElem _ _ hi, heq] at hmem
  have hfinite := h.finite _ hxs
  exact ⟨(toRat_le_iff (h.finite _ List.mem_cons_self) hfinite).mp hmem.1,
    (toRat_le_iff hfinite h.isFinite_greatest).mp hmem.2⟩

theorem Ascending.ordered_of_gaps (h : Ascending ((least :: rest).map Double.toFloat))
    (hgap : ∀ share ∈ shares, (gap ((least :: rest).map Double.toFloat) share).isFinite = true) :
    (ofSorted least (least :: rest)).Ordered := by
  have hpos : 0 < ((least :: rest).map Double.toFloat).length := Nat.succ_pos _
  obtain ⟨hlower, hhalf, hupper⟩ := quarters_shares
  obtain ⟨i, hi⟩ := exists_position hlower h.count
  obtain ⟨j, hj⟩ := exists_position hhalf h.count
  obtain ⟨k, hk⟩ := exists_position hupper h.count
  have hlowergap := hgap 0.25 (by simp [shares])
  have hhalfgap := hgap 0.5 (by simp [shares])
  have huppergap := hgap 0.75 (by simp [shares])
  obtain ⟨hfinite, hge, -⟩ := h.quantile_mem hi hpos hlowergap
  obtain ⟨hfinite', -, -⟩ := h.quantile_mem hj hpos hhalfgap
  obtain ⟨hfinite'', -, hle⟩ := h.quantile_mem hk hpos huppergap
  have hij := Position.mono hlower hhalf (by decide) h.count hi hj
  have hjk := Position.mono hhalf hupper (by decide) h.count hj hk
  have hlast := hk.lt hpos
  have hfirst := h.getD_mem_Icc (i := i / 4) (by omega)
  have hgreatest := h.getD_mem_Icc hlast
  have hlowerge := (toRat_le_iff (h.finite _ List.mem_cons_self) hfinite).mp (hfirst.1.trans hge)
  have hlowerle := (toRat_le_iff hfinite hfinite').mp (h.quantile_mono hi hj hij hpos hlowergap hhalfgap)
  have hupperge := (toRat_le_iff hfinite' hfinite'').mp (h.quantile_mono hj hk hjk hpos hhalfgap huppergap)
  have hupperle := (toRat_le_iff hfinite'' h.isFinite_greatest).mp (hle.trans hgreatest.2)
  exact ⟨hlowerge, hlowerle, hupperge, hupperle⟩

/-- The statistics of ascending numbers are in order if and only if each quartile is between numbers
that are no further apart than a double can tell. -/
theorem Ascending.ordered_iff (h : Ascending ((least :: rest).map Double.toFloat)) :
    (ofSorted least (least :: rest)).Ordered ↔
      ∀ share ∈ shares, (gap ((least :: rest).map Double.toFloat) share).isFinite = true := by
  refine ⟨fun hordered share hshare => ?_, h.ordered_of_gaps⟩
  rw [← Bool.not_eq_false]
  intro hgap
  obtain ⟨k, hk⟩ := exists_quarters hshare
  obtain ⟨i, hi⟩ := exists_position hk h.count
  have hparts := h.quantile_of_not_isFinite hi (Nat.succ_pos _) hgap
  have hle := hordered.quantile_le hshare
  have hlevel := (le_iff_level (isNaN_of_le hle).1 (isNaN_of_le hle).2).mp hle
  rw [hparts] at hlevel
  exact hlevel.not_gt (isFinite_iff_level.mp h.isFinite_greatest).2

end

end Spread

open Number Spread

namespace Column

variable {c : Column}

theorem sortedNumbers_perm (c : Column) : c.sortedNumbers.Perm c.numbers := List.mergeSort_perm _ _

theorem pairwise_sortedNumbers (c : Column) :
    c.sortedNumbers.Pairwise fun x y => x.orderKey ≤ y.orderKey := by
  refine (List.pairwise_mergeSort ?_ ?_ c.numbers).imp of_decide_eq_true
  · exact fun x y z hxy hyz => decide_eq_true ((of_decide_eq_true hxy).trans (of_decide_eq_true hyz))
  · exact fun x y => by simpa using Int.le_total x.orderKey y.orderKey

theorem ascending_sortedNumbers (hfinite : ∀ x ∈ c.numbers, x.isFinite = true)
    (hcount : c.numbers.length < 2 ^ 64) : Ascending (c.sortedNumbers.map Double.toFloat) where
  finite := List.forall_mem_map.mpr fun d hd => hfinite d (c.sortedNumbers_perm.mem_iff.mp hd)
  le := List.pairwise_map.mpr (c.pairwise_sortedNumbers.imp_of_mem fun hx hy h => by
    have hx := hfinite _ (c.sortedNumbers_perm.mem_iff.mp hx)
    have hy := hfinite _ (c.sortedNumbers_perm.mem_iff.mp hy)
    have hxnan := Double.isNaN_of_isFinite hx
    have hynan := Double.isNaN_of_isFinite hy
    rw [← Double.ofFloat_toFloat hxnan, ← Double.ofFloat_toFloat hynan] at h
    refine (toRat_le_iff hx hy).mpr ((le_iff_level hxnan hynan).mpr ?_)
    exact (orderKey_le_iff_level.mp h).elim le_of_lt fun h => h.1.le)
  count := (List.length_map _).trans_lt (c.sortedNumbers_perm.length_eq.trans_lt hcount)

end Column

namespace Table

variable {t : Table} {c : Column}

/-- A column of finite numbers is summarised with its extremes, and with quartiles at ranks that are in
the column. Its statistics are in order if and only if each quartile is between numbers that are no
further apart than a double can tell. -/
theorem summary_ordered (hc : c ∈ t.columns) (htype : c.type = .number) (hne : c.numbers ≠ [])
    (hfinite : ∀ x ∈ c.numbers, x.isFinite = true) (hcount : c.numbers.length < 2 ^ 64) :
    c.summary ∈ t.summary ∧ ∃ s, c.summary = ⟨c.name, c.numbers.length, some s⟩ ∧
      s.least ∈ c.numbers ∧ s.greatest ∈ c.numbers ∧
      (∀ x ∈ c.numbers, s.least.toFloat ≤ x.toFloat ∧ x.toFloat ≤ s.greatest.toFloat) ∧
      (∀ share ∈ shares, lowerRank c.numbers.length share < c.numbers.length ∧
        upperRank c.numbers.length share < c.numbers.length) ∧
      (s.Ordered ↔ ∀ share ∈ shares, (gap (c.sortedNumbers.map Double.toFloat) share).isFinite = true) := by
  refine ⟨List.mem_map_of_mem (List.mem_filter.mpr ⟨hc, decide_eq_true htype⟩), ?_⟩
  have hascending := c.ascending_sortedNumbers hfinite hcount
  have hperm := c.sortedNumbers_perm
  rw [Column.summary, ← hperm.length_eq]
  simp only [← hperm.mem_iff]
  generalize c.sortedNumbers = sorted at hascending hperm ⊢
  cases sorted with
  | nil => exact absurd hperm.nil_eq.symm hne
  | cons least rest =>
    have hlength : ((least :: rest).map Double.toFloat).length = (least :: rest).length :=
      List.length_map _
    refine ⟨.ofSorted least (least :: rest), rfl, List.mem_cons_self, greatest_mem least rest,
      fun x => hascending.bounds, fun share hshare => ?_, hascending.ordered_iff⟩
    obtain ⟨k, hk⟩ := exists_quarters hshare
    obtain ⟨i, hi⟩ := exists_position hk hascending.count
    rw [← hlength]
    exact hi.ranks_lt (Nat.succ_pos _)

def near : Table := ⟨[⟨"load", .number, [.number 1.0, .missing, .number 2.5]⟩], 3⟩

theorem summary_ordered_near : near.Valid ∧ ∃ c s, c ∈ near.columns ∧ c.summary ∈ near.summary ∧
    c.summary = ⟨"load", 2, some s⟩ ∧ s.Ordered := by
  have hsorted : (⟨"load", .number, [.number 1.0, .missing, .number 2.5]⟩ : Column).sortedNumbers =
      [1.0, 2.5] := List.mergeSort_of_pairwise (by decide +kernel)
  obtain ⟨hmem, s, heq, -, -, -, -, hiff⟩ := summary_ordered (t := near) List.mem_cons_self rfl
    (by decide +kernel) (by decide +kernel) (by decide +kernel)
  rw [hsorted] at hiff
  exact ⟨by decide, _, s, List.mem_cons_self, hmem, heq, hiff.mpr (by decide +kernel)⟩

/-- Two finite numbers further apart than the greatest double. -/
def apart : Table := ⟨[⟨"load", .number, [.number (-1.5e308), .number 1.5e308]⟩], 2⟩

/-- The quartiles of finite numbers can be greater than all of them. -/
theorem summary_apart : apart.Valid ∧ ∃ c s, c ∈ apart.columns ∧ c.type = .number ∧
    c.numbers ≠ [] ∧ (∀ x ∈ c.numbers, x.isFinite = true) ∧ c.summary ∈ apart.summary ∧
    c.summary = ⟨"load", 2, some s⟩ ∧ s.greatest.toFloat < s.upperQuartile ∧ ¬s.Ordered := by
  have hsorted : (⟨"load", .number, [.number (-1.5e308), .number 1.5e308]⟩ : Column).sortedNumbers =
      [-1.5e308, 1.5e308] := List.mergeSort_of_pairwise (by decide +kernel)
  refine ⟨by decide, _, .ofSorted (-1.5e308) [-1.5e308, 1.5e308], List.mem_cons_self, rfl,
    by decide +kernel, by decide +kernel, List.mem_cons_self, ?_, by decide +kernel, fun h => ?_⟩
  · rw [Column.summary, hsorted]
    rfl
  · exact absurd h.greatest (by decide +kernel)

end Table

end Tabular
