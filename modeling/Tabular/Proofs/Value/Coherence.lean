import Tabular.Proofs.Table.Classes
import Tabular.Proofs.Value.Comparison

/-!
# Equality and order of values

Values are told apart in three ways: by their keys in grouping, by comparisons, and by the order of
sorting. Of doubles that are numbers all three go by the level, and only the order of sorting tells
zeros of different signs apart. So keys are the same if and only if the values compare as equal, a value
that compares as less sorts before, and values that sort as equal have one key.
-/
namespace Tabular

namespace Number

variable {x y : Float}

/-- Only zeros share their level. -/
theorem eq_of_level_eq (h : level (parts x) = level (parts y)) (hne : level (parts x) ≠ 0) :
    x = y := by
  refine Double.ofFloat_inj.mp (Double.orderKey_injective ?_)
  rw [orderKey_eq_level, orderKey_eq_level, h]
  have hsign : isNegative x = isNegative y := by
    cases hx : isNegative x <;> cases hy : isNegative y
    · rfl
    · exact absurd (le_antisymm (h ▸ level_nonpos hy) (level_nonneg hx)) hne
    · exact absurd (le_antisymm (level_nonpos hx) (h ▸ level_nonneg hy)) hne
    · rfl
  rw [hsign]

theorem beq_zero_iff_level (hx : x.isNaN = false) : (x == 0.0) = true ↔ level (parts x) = 0 :=
  beq_iff_level hx (by decide)

/-- To leave out the sign of a zero is to stay at the level. -/
theorem level_unsigned (hx : x.isNaN = false) :
    level (parts (if x == 0.0 then (0.0 : Float) else x)) = level (parts x) := by
  split
  next hzero => exact ((beq_zero_iff_level hx).mp hzero).symm
  next => rfl

/-- Apart from the sign of zeros, doubles that are equal are the same. -/
theorem unsigned_eq_iff (hx : x.isNaN = false) (hy : y.isNaN = false) :
    (if x == 0.0 then (0.0 : Float) else x) = (if y == 0.0 then (0.0 : Float) else y) ↔
      (x == y) = true := by
  rw [beq_iff_level hx hy]
  constructor
  · intro h
    rw [← level_unsigned hx, h, level_unsigned hy]
  · intro h
    rw [← level_unsigned hx, ← level_unsigned hy] at h
    by_cases hzero : level (parts x) = 0
    · rw [level_unsigned hx, level_unsigned hy] at h
      rw [if_pos ((beq_zero_iff_level hx).mpr hzero), if_pos ((beq_zero_iff_level hy).mpr (h ▸ hzero))]
    · exact eq_of_level_eq h (level_unsigned hx ▸ hzero)

theorem orderKey_lt_of_level (h : level (parts x) < level (parts y)) :
    (x : Double).orderKey < (y : Double).orderKey := by
  refine not_le.mp fun hle => ?_
  obtain hlt | ⟨heq, -⟩ := orderKey_le_iff_level.mp hle
  · exact lt_asymm h hlt
  · exact h.ne' heq

theorem standing_of_isNaN (h : x.isNaN = true ∨ y.isNaN = true) : standing x y = .unordered := by
  simp [standing, lt_iff_compare, beq_iff_compare, compare_of_isNaN h, compare_of_isNaN h.symm]

end Number

theorem Double.bits_eq_iff {x y : Double} (hx : x.isNaN = false) (hy : y.isNaN = false) :
    (if x.isZero then (0.0 : Double) else x).bits = (if y.isZero then (0.0 : Double) else y).bits ↔
      (x.toFloat == y.toFloat) = true := by
  have hunsigned {d : Double} (hd : d.isNaN = false) : (if d.isZero then (0.0 : Double) else d) =
      (if d.toFloat == 0.0 then (0.0 : Float) else d.toFloat : Float) := by
    rw [isZero]
    split
    next => rfl
    next => exact (ofFloat_toFloat hd).symm
  rw [← Number.unsigned_eq_iff hx hy, ← ofFloat_inj, ← hunsigned hx, ← hunsigned hy]
  exact ⟨fun h => congrArg Double.mk h, congrArg bits⟩

namespace Value

variable {v w : Value} {op : Comparison}

theorem holds_iff : v.holds op w = true ↔ v.compare op w = .boolean true := beq_iff_eq

theorem holds_eq_of_ordered {o : Ordering} (hv : v.isError = false) (hw : w.isError = false)
    (h : v.standing w = .ordered o) : v.holds .eq w = true ↔ o = .eq := by
  rw [holds_of_ordered hv hw h]
  exact beq_iff_eq

theorem holds_eq_iff_key? (hv : v.isError = false) (hw : w.isError = false) (hvnan : v.isNaN = false)
    (hwnan : w.isNaN = false) : v.holds .eq w = true ↔ v.key? = w.key? := by
  by_cases halike : Alike v w
  · cases halike with
    | missing => exact iff_of_true rfl rfl
    | number x y =>
      rw [holds_eq_of_ordered hv hw (Number.standing_eq hvnan hwnan), Int.compare_eq_eq,
        ← Number.beq_iff_level hvnan hwnan, ← Double.bits_eq_iff hvnan hwnan, key?, key?,
        Option.some.injEq, Key.number.injEq]
    | text s t =>
      rw [holds_eq_of_ordered hv hw rfl, Std.LawfulEqOrd.compare_eq_iff_eq, key?, key?,
        Option.some.injEq, Key.text.injEq]
    | boolean a b =>
      rw [holds_eq_of_ordered hv hw rfl, Std.LawfulEqOrd.compare_eq_iff_eq, key?, key?,
        Option.some.injEq, Key.boolean.injEq]
    | error e f => cases hv
  · -- values of different kinds have different keys, and only the missing one has an order among them
    cases v <;> cases hv <;> cases w <;> cases hw
    all_goals first
      | exact absurd (by constructor) halike
      | exact iff_of_false (by rw [holds_of_ordered rfl rfl rfl]; decide) (by simp [key?])
      | exact iff_of_false (by rw [holds_of_unlike rfl rfl rfl]; decide) (by simp [key?])

/-- Values compare as equal if they have a key, and the same one. -/
theorem holds_eq_iff (hvnan : v.isNaN = false) (hwnan : w.isNaN = false) :
    v.holds .eq w = true ↔ v.isError = false ∧ w.isError = false ∧ v.key? = w.key? := by
  constructor
  · intro h
    obtain ⟨hv, hw⟩ := isError_of_holds h
    exact ⟨hv, hw, (holds_eq_iff_key? hv hw hvnan hwnan).mp h⟩
  · rintro ⟨hv, hw, hkey⟩
    exact (holds_eq_iff_key? hv hw hvnan hwnan).mpr hkey

theorem holds_of_unordered (hv : v.isError = false) (hw : w.isError = false)
    (h : v.standing w = .unordered) : v.holds op w = false := by
  unfold holds compare
  split
  · cases hv
  · cases hw
  · rw [h]
    rfl

theorem sortOrder_number_of_holds_lt {x y : Double} (h : (number x).holds .lt (number y) = true) :
    (number x).sortOrder (number y) = .lt := by
  have hstanding : (number x).standing (number y) = Number.standing x.toFloat y.toFloat := rfl
  by_cases hnan : x.isNaN = true ∨ y.isNaN = true
  · rw [holds_of_unordered rfl rfl (hstanding.trans (Number.standing_of_isNaN hnan))] at h
    cases h
  · rw [not_or, Bool.not_eq_true, Bool.not_eq_true] at hnan
    rw [holds_of_ordered (v := number x) rfl rfl
      (hstanding.trans (Number.standing_eq hnan.1 hnan.2))] at h
    have hkey := Number.orderKey_lt_of_level (Int.compare_eq_lt.mp (beq_iff_eq.mp h))
    rw [Double.ofFloat_toFloat hnan.1, Double.ofFloat_toFloat hnan.2] at hkey
    exact Int.compare_eq_lt.mpr hkey

/-- What compares as less sorts before. -/
theorem sortOrder_of_holds_lt (h : v.holds .lt w = true) : v.sortOrder w = .lt := by
  obtain ⟨hv, hw⟩ := isError_of_holds h
  by_cases halike : Alike v w
  · cases halike with
    | number x y => exact sortOrder_number_of_holds_lt h
    | error e f => cases hv
    | missing => cases h
    | text s t =>
      rw [holds_of_ordered rfl rfl rfl] at h
      exact beq_iff_eq.mp h
    | boolean a b =>
      rw [holds_of_ordered rfl rfl rfl] at h
      exact beq_iff_eq.mp h
  · -- of values of different kinds only the missing one is less
    cases v <;> cases hv <;> cases w <;> cases hw
    all_goals first
      | rfl
      | exact absurd (by constructor) halike
      | cases h

theorem key?_eq_of_sortOrder_eq (h : v.sortOrder w = .eq) : v.key? = w.key? :=
  congrArg key? (Std.LawfulEqCmp.eq_of_compare h)

/-- What may stand before a value is not greater. -/
theorem not_holds_lt_of_isLE (h : (v.sortOrder w).isLE = true) : w.holds .lt v = false := by
  rw [Bool.eq_false_iff]
  intro hlt
  have hswap : v.sortOrder w = (w.sortOrder v).swap := Std.OrientedCmp.eq_swap
  rw [hswap, sortOrder_of_holds_lt hlt] at h
  cases h

end Value

end Tabular
