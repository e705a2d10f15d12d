import Tabular.Proofs.Number.Whole

/-!
# The order of doubles

The bits of a double below its sign count the steps from zero to its magnitude, a step leading from
one double to the next. Counted with their sign the steps are in the order of the numbers, the zeros
being equal, and the order key differs from them only in that it has every negative number, and so
the negative zero, one step lower. It thereby is the total order of IEEE 754 on all doubles.
-/
namespace Tabular

namespace Number

open Float.Model Float.Model.UnpackedFloat

/-- The steps from zero to a significand with an exponent. -/
def steps (m : Nat) (e : Int) : Nat := (e + 1074).toNat * 2 ^ 52 + m

def directed : Sign → Nat → Int
  | .positive, n => n
  | .negative, n => -n

/-- Where a double stands among all doubles, zero standing at zero. -/
def level : UnpackedFloat → Int
  | .zero _ => 0
  | .finite s m e _ => directed s (steps m e)
  | .infinity s => directed s (2047 * 2 ^ 52)
  | .notANumber => 2047 * 2 ^ 52 + 2 ^ 51

theorem toNat_toBits_mod (x : Float) :
    x.toBits.toNat % 2 ^ 63 = steps (magnitude x).mantissa (magnitude x).exponent := by
  have hlt : x.toBits.toNat < 2 ^ 64 := x.toBits.toNat_lt
  unfold magnitude steps
  norm_num only [Nat.pow_eq]
  split <;> dsimp only <;> omega

theorem orderKey_eq_ite (x : Float) :
    (x : Double).orderKey = if isNegative x then -((x.toBits.toNat % 2 ^ 63 : Nat) : Int) - 1
      else (x.toBits.toNat % 2 ^ 63 : Nat) := by
  have hlt : x.toBits.toNat < 2 ^ 64 := x.toBits.toNat_lt
  unfold Double.orderKey Double.ofFloat isNegative
  norm_num only [Nat.pow_eq, decide_eq_true_eq]
  split <;> split <;> omega

/-- The order key is the level, less one step for a negative sign. -/
theorem orderKey_eq_level (x : Float) :
    (x : Double).orderKey = level (parts x) - if isNegative x then 1 else 0 := by
  cases hparts : parts x with
  | finite s m e hm =>
    obtain ⟨_, hzero, -⟩ | ⟨_, _, _, _, hfinite, hmagnitude, hsign⟩ :=
      magnitude_cases (x := x) (by rw [isFinite_eq, hparts]; rfl)
    · cases hparts.symm.trans hzero
    · cases hparts.symm.trans hfinite
      rw [orderKey_eq_ite, toNat_toBits_mod, hmagnitude, hsign]
      cases s <;> simp [level, directed]
  | zero s =>
    rw [← ofParts_parts x, hparts]
    cases s <;> decide
  | infinity s =>
    rw [← ofParts_parts x, hparts]
    cases s <;> decide
  | notANumber =>
    rw [← ofParts_parts x, hparts]
    decide

theorem level_nonpos {x : Float} (h : isNegative x = true) : level (parts x) ≤ 0 := by
  have hkey := orderKey_eq_level x
  rw [orderKey_eq_ite, if_pos h, if_pos h] at hkey
  omega

theorem level_nonneg {x : Float} (h : isNegative x = false) : 0 ≤ level (parts x) := by
  have hkey := orderKey_eq_level x
  rw [orderKey_eq_ite, h, if_neg Bool.false_ne_true, if_neg Bool.false_ne_true, sub_zero] at hkey
  omega

variable {m n : Nat} {e f : Int}

theorem level_positive (hm : 0 < m) : 0 < level (.finite .positive m e hm) :=
  Int.natCast_pos.mpr (Nat.add_pos_right _ hm)

theorem level_negative (hm : 0 < m) : level (.finite .negative m e hm) < 0 :=
  Int.neg_neg_of_pos (level_positive hm)

theorem Canonical.steps_lt {s : Sign} {hm : 0 < m} (h : Canonical (.finite s m e hm)) :
    steps m e < 2047 * 2 ^ 52 := by
  obtain ⟨hm53, hlow, hhigh, -⟩ := h
  unfold steps
  omega

theorem Canonical.level_mem {s : Sign} {hm : 0 < m} (h : Canonical (.finite s m e hm)) :
    level (.infinity .negative) < level (.finite s m e hm) ∧
      level (.finite s m e hm) < level (.infinity .positive) := by
  have hlt := h.steps_lt
  cases s <;> dsimp only [level, directed] <;> omega

/-- A greater exponent outweighs any significand, as only the least exponent goes with less than 53
digits. -/
theorem Canonical.steps_lt_steps {s t : Sign} {hm : 0 < m} {hn : 0 < n}
    (h : Canonical (.finite s m e hm)) (h' : Canonical (.finite t n f hn)) (hlt : e < f) :
    steps m e < steps n f := by
  obtain ⟨hm53, hlow, -, -⟩ := h
  obtain ⟨hn53, -, -, hnormal⟩ := h'
  unfold steps
  omega

theorem Canonical.compare_steps {s t : Sign} {hm : 0 < m} {hn : 0 < n}
    (h : Canonical (.finite s m e hm)) (h' : Canonical (.finite t n f hn)) :
    (Ord.compare e f).then (Ord.compare m n) = Ord.compare (steps m e : Int) (steps n f) := by
  obtain hlt | rfl | hgt := lt_trichotomy e f
  · have hsteps : (steps m e : Int) < steps n f := Int.ofNat_lt.mpr (h.steps_lt_steps h' hlt)
    simp [Int.compare_eq_lt.mpr hlt, Int.compare_eq_lt.mpr hsteps]
  · rw [Int.compare_eq_eq.mpr rfl, Ordering.eq_then, Nat.compare_eq_ite_lt, Int.compare_eq_ite_lt]
    unfold steps
    grind
  · have hsteps : (steps n f : Int) < steps m e := Int.ofNat_lt.mpr (h'.steps_lt_steps h hgt)
    simp [Int.compare_eq_gt.mpr hgt, Int.compare_eq_gt.mpr hsteps]

theorem compare_neg_neg (a b : Int) : Ord.compare (-a) (-b) = (Ord.compare a b).swap := by
  rw [Int.compare_swap, Int.compare_eq_ite_lt, Int.compare_eq_ite_lt]
  grind

theorem some_lt {a b : Int} (h : a < b) : some .lt = some (Ord.compare a b) :=
  congrArg some (Int.compare_eq_lt.mpr h).symm

theorem some_gt {a b : Int} (h : b < a) : some .gt = some (Ord.compare a b) :=
  congrArg some (Int.compare_eq_gt.mpr h).symm

/-- Numbers compare as their levels. -/
theorem compare_eq_level {u v : UnpackedFloat} (hu : Canonical u) (hv : Canonical v)
    (hu' : u.isNaN = false) (hv' : v.isNaN = false) :
    u.compare v = some (Ord.compare (level u) (level v)) := by
  cases u with
  | notANumber => cases hu'
  | zero s =>
    cases v with
    | notANumber => cases hv'
    | zero t => rfl
    | infinity t => cases t <;> rfl
    | finite t n f hn =>
      cases t with
      | negative => exact some_gt (level_negative hn)
      | positive => exact some_lt (level_positive hn)
  | infinity s =>
    cases v with
    | notANumber => cases hv'
    | zero t => cases s <;> rfl
    | infinity t => cases s <;> cases t <;> rfl
    | finite t n f hn =>
      cases s with
      | negative => exact some_lt hv.level_mem.1
      | positive => exact some_gt hv.level_mem.2
  | finite s m e hm =>
    cases v with
    | notANumber => cases hv'
    | zero t =>
      cases s with
      | negative => exact some_lt (level_negative hm)
      | positive => exact some_gt (level_positive hm)
    | infinity t =>
      cases t with
      | negative => exact some_gt hu.level_mem.1
      | positive => exact some_lt hu.level_mem.2
    | finite t n f hn =>
      have hsteps := hu.compare_steps hv
      cases s with
      | negative =>
        cases t with
        | negative => exact congrArg some ((congrArg _ hsteps).trans (compare_neg_neg _ _).symm)
        | positive => exact some_lt ((level_negative hm).trans (level_positive hn))
      | positive =>
        cases t with
        | negative => exact some_gt ((level_negative hn).trans (level_positive hm))
        | positive => exact congrArg some hsteps

variable {x y : Float}

theorem lt_iff_compare : x < y ↔ (parts x).compare (parts y) = some .lt :=
  decide_eq_true_iff.trans (beq_iff_eq (a := (parts x).compare (parts y)))

theorem beq_iff_compare : (x == y) = true ↔ (parts x).compare (parts y) = some .eq :=
  beq_iff_eq (a := (parts x).compare (parts y))

theorem le_iff_compare : x ≤ y ↔ ((parts x).compare (parts y)).any Ordering.isLE = true :=
  decide_eq_true_iff

theorem compare_parts (hx : x.isNaN = false) (hy : y.isNaN = false) :
    (parts x).compare (parts y) = some (Ord.compare (level (parts x)) (level (parts y))) :=
  compare_eq_level (canonical_parts x) (canonical_parts y) hx hy

theorem lt_iff_level (hx : x.isNaN = false) (hy : y.isNaN = false) :
    x < y ↔ level (parts x) < level (parts y) := by
  rw [lt_iff_compare, compare_parts hx hy, Option.some_inj, Int.compare_eq_lt]

theorem le_iff_level (hx : x.isNaN = false) (hy : y.isNaN = false) :
    x ≤ y ↔ level (parts x) ≤ level (parts y) := by
  rw [le_iff_compare, compare_parts hx hy, Option.any_some, Int.isLE_compare]

theorem beq_iff_level (hx : x.isNaN = false) (hy : y.isNaN = false) :
    (x == y) = true ↔ level (parts x) = level (parts y) := by
  rw [beq_iff_compare, compare_parts hx hy, Option.some_inj, Int.compare_eq_eq]

theorem compare_of_isNaN (h : x.isNaN = true ∨ y.isNaN = true) :
    (parts x).compare (parts y) = none := by
  rw [isNaN_eq, isNaN_eq] at h
  revert h
  cases parts x <;> cases parts y <;> simp [UnpackedFloat.isNaN, UnpackedFloat.compare]

theorem isNaN_of_le (h : x ≤ y) : x.isNaN = false ∧ y.isNaN = false := by
  by_contra hnan
  rw [not_and_or, Bool.not_eq_false, Bool.not_eq_false] at hnan
  rw [le_iff_compare, compare_of_isNaN hnan] at h
  cases h

theorem double_le_trans {z : Float} (hxy : x ≤ y) (hyz : y ≤ z) : x ≤ z := by
  obtain ⟨hx, hy⟩ := isNaN_of_le hxy
  obtain ⟨-, hz⟩ := isNaN_of_le hyz
  rw [le_iff_level hx hy] at hxy
  rw [le_iff_level hy hz] at hyz
  exact (le_iff_level hx hz).mpr (hxy.trans hyz)

theorem toFloat_beq_zero {n : UInt64} (hn : 0 < n.toNat) : (n.toFloat == 0.0) = false := by
  obtain ⟨m, e, hm, hparts⟩ := exists_parts_toFloat hn
  have hzero : parts 0.0 = .zero .positive := rfl
  rw [Bool.eq_false_iff, ne_eq, beq_iff_compare, hparts, hzero]
  exact nofun

theorem level_one : level (parts 1.0) = 1023 * 2 ^ 52 := by decide

/-- From one on the significand of a double has all its digits, and no more of them than 52 come after
the point. -/
theorem wholePart_pos (h : x.isFinite = true) (hone : 1.0 ≤ x) :
    isNegative x = false ∧ 0 < wholePart x := by
  have hlevel := (le_iff_level (by decide) (isNaN_of_isFinite h)).mp hone
  rw [level_one] at hlevel
  obtain ⟨s, hparts, -⟩ | ⟨s, m, e, hm, hparts, hmagnitude, hsign⟩ := magnitude_cases h
  · rw [hparts, level] at hlevel
    omega
  · have hcanonical := canonical_parts x
    rw [hparts] at hlevel hcanonical
    obtain ⟨hm53, -, -, hnormal⟩ := hcanonical
    cases s with
    | negative =>
      have hnegative := level_negative (e := e) hm
      omega
    | positive =>
      refine ⟨hsign, ?_⟩
      rw [level, directed, steps] at hlevel
      have hm52 : 2 ^ 52 ≤ m := by omega
      have he : -52 ≤ e := by omega
      rw [wholePart, hmagnitude, Binary.fraction]
      dsimp only
      refine Nat.div_pos ?_ (Nat.pow_pos (by decide))
      calc 2 ^ (-e).toNat ≤ 2 ^ 52 := Nat.pow_le_pow_right (by decide) (by omega)
        _ ≤ m := hm52
        _ ≤ m * 2 ^ e.toNat := Nat.le_mul_of_pos_right m (Nat.two_pow_pos _)

theorem toIntWithin_of_one_le {high : Nat} (h : x.isFinite = true) (hone : 1.0 ≤ x) :
    toIntWithin 0 high x = (min high (wholePart x) : Nat) := by
  rw [toIntWithin, isNaN_of_isFinite h, h, (wholePart_pos h hone).1]
  simp

theorem not_lt_one (h : x.isFinite = true) (hone : 1.0 ≤ x) : ¬x < 1.0 := by
  rw [lt_iff_level (isNaN_of_isFinite h) (by decide)]
  exact not_lt.mpr ((le_iff_level (by decide) (isNaN_of_isFinite h)).mp hone)

/-- Only at the level of the zeros do signs differ. -/
theorem orderKey_le_iff_level : (x : Double).orderKey ≤ (y : Double).orderKey ↔
    level (parts x) < level (parts y) ∨
      (level (parts x) = level (parts y) ∧ (isNegative x = true ∨ isNegative y = false)) := by
  rw [orderKey_eq_level, orderKey_eq_level]
  cases hx : isNegative x <;> cases hy : isNegative y
  · simp [le_iff_lt_or_eq]
  · simp
  · have hle : level (parts x) ≤ level (parts y) := (level_nonpos hx).trans (level_nonneg hy)
    rw [if_pos rfl, if_neg Bool.false_ne_true]
    exact iff_of_true (by omega) (hle.lt_or_eq.imp_right fun heq => ⟨heq, .inl rfl⟩)
  · simp [le_iff_lt_or_eq]

end Number

namespace Double

variable {x y : Double}

/-- The bits below the exponent, which tell the forms apart of what is not a number. -/
def payload (d : Double) : Nat := d.bits.toNat % 2 ^ 52

/-- The total order of IEEE 754. Numbers are in their order, the negative zero before the positive one.
What is not a number stands before all numbers if its sign is negative and behind them if it is
positive, and the greater its payload, the further out. -/
def TotalOrder (x y : Double) : Prop :=
  x.toFloat < y.toFloat ∨
    ((x.toFloat == y.toFloat) = true ∧ (x.isNegative = true ∨ y.isNegative = false)) ∨
    (x.isNaN = true ∧ x.isNegative = true ∧
      (y.isNaN = true → y.isNegative = true → y.payload ≤ x.payload)) ∨
    (y.isNaN = true ∧ y.isNegative = false ∧
      (x.isNaN = true → x.isNegative = false → x.payload ≤ y.payload))

theorem orderKey_injective (h : x.orderKey = y.orderKey) : x = y := by
  have hx : x.bits.toNat < 2 ^ 64 := x.bits.toNat_lt
  have hy : y.bits.toNat < 2 ^ 64 := y.bits.toNat_lt
  obtain ⟨bits⟩ := x
  obtain ⟨bits'⟩ := y
  refine congrArg Double.mk (UInt64.toNat_inj.mp ?_)
  unfold orderKey at h
  norm_num only [Nat.pow_eq] at h
  split at h <;> split at h <;> omega

/-- The order key puts doubles in the total order. -/
theorem orderKey_le_iff : x.orderKey ≤ y.orderKey ↔ TotalOrder x y := by
  unfold TotalOrder
  by_cases hnan : x.isNaN = true ∨ y.isNaN = true
  · -- no comparison holds, and the bits alone decide
    have hlt : ¬x.toFloat < y.toFloat := by
      rw [Number.lt_iff_compare, Number.compare_of_isNaN hnan]
      exact nofun
    have hbeq : (x.toFloat == y.toFloat) = false := by
      rw [Bool.eq_false_iff, ne_eq, Number.beq_iff_compare, Number.compare_of_isNaN hnan]
      exact nofun
    have hx : x.bits.toNat < 2 ^ 64 := x.bits.toNat_lt
    have hy : y.bits.toNat < 2 ^ 64 := y.bits.toNat_lt
    rw [isNaN_iff_lt, isNaN_iff_lt] at hnan
    simp only [hlt, hbeq, Bool.false_eq_true, false_and, false_or, isNaN_iff_lt, isNegative, orderKey,
      payload, decide_eq_true_eq, decide_eq_false_iff_not, Nat.pow_eq]
    split <;> split <;> omega
  · obtain ⟨hx, hy⟩ := not_or.mp hnan
    rw [Bool.not_eq_true] at hx hy
    have hkey := Number.orderKey_le_iff_level (x := x.toFloat) (y := y.toFloat)
    have hsign {d : Double} (h : d.isNaN = false) : Number.isNegative d.toFloat = d.isNegative := by
      conv_rhs => rw [← ofFloat_toFloat h]
      rfl
    rw [ofFloat_toFloat hx, ofFloat_toFloat hy, ← Number.lt_iff_level hx hy, ← Number.beq_iff_level hx hy,
      hsign hx, hsign hy] at hkey
    rw [hkey, hx, hy]
    simp

/-- The two negative forms come before all numbers, the one with the greater payload first, and the
positive form behind them. -/
example : [⟨0xfff8000000000001⟩, ⟨0xfff8000000000000⟩, -1e999, -1.0, -0.0, 0.0, 1e999,
    ⟨0x7ff8000000000000⟩].Pairwise fun x y : Double => x.orderKey < y.orderKey := by
  decide +kernel

end Double

end Tabular
