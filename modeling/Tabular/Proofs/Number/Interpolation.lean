import Tabular.Proofs.Number.Rational

/-!
# Interpolation between doubles

Between two finite doubles `a` and `b` interpolation computes `a + (b - a) * f`, and rounds three times.
As long as the difference is a double and the fraction at most three quarters, the result lies between
`a` and `b` and grows with the fraction: the difference may have been rounded up, but not by the quarter
that the fraction leaves. Where the difference is too large for a double, the result is infinite.
The positions between whole numbers that interpolation starts from are in quarters, and the last section
says what is at and above such a position.
-/
namespace Tabular.Number

open Float.Model Float.Model.UnpackedFloat

variable {x y z a b f g : Float}

/-- Two finite doubles in order, no further apart than a double can tell. -/
structure Spans (a b : Float) : Prop where
  lower : a.isFinite = true
  upper : b.isFinite = true
  le : toRat a ≤ toRat b
  gap : (b - a).isFinite = true

/-- A fraction of at most three quarters. -/
structure IsFraction (f : Float) : Prop where
  finite : f.isFinite = true
  nonneg : 0 ≤ toRat f
  le : toRat f ≤ 3 / 4

theorem Spans.gap_nonneg (h : Spans a b) : 0 ≤ toRat (b - a) :=
  (rounds_sub h.upper h.lower).toRat_nonneg h.gap (sub_nonneg.mpr h.le)

/-- A part of a gap is not longer than the two numbers are apart, although the gap may be rounded up. -/
theorem Spans.part (h : Spans a b) (hf : IsFraction f) :
    ((b - a) * f).isFinite = true ∧ 0 ≤ toRat ((b - a) * f) ∧
      toRat ((b - a) * f) ≤ toRat b - toRat a := by
  obtain ⟨i, hi⟩ : ∃ i : Nat, toRat b - toRat a = i * 2 ^ (-1074 : Int) := by
    obtain ⟨i, hi⟩ := exists_units h.lower
    obtain ⟨j, hj⟩ := exists_units h.upper
    have hle : i ≤ j := by
      have hab := h.le
      rw [hi, hj] at hab
      exact_mod_cast le_of_mul_le_mul_right hab (zpow_pos two_pos _)
    have hcast : (((j - i).toNat : Nat) : ℚ) = j - i := by
      exact_mod_cast Int.toNat_of_nonneg (sub_nonneg.mpr hle)
    exact ⟨(j - i).toNat, by rw [hi, hj, hcast, sub_mul]⟩
  have hrounds := rounds_sub h.upper h.lower
  rw [hi] at hrounds ⊢
  obtain ⟨y, hy, hle, hbelow⟩ := hrounds.exists_below le_rfl h.gap
  have hlow : toRat 0.0 ≤ toRat (b - a) * toRat f := by
    rw [toRat_zero]
    exact mul_nonneg h.gap_nonneg hf.nonneg
  have hhigh : toRat (b - a) * toRat f ≤ toRat y := calc
    toRat (b - a) * toRat f ≤ toRat (b - a) * (3 / 4) :=
      mul_le_mul_of_nonneg_left hf.le h.gap_nonneg
    _ ≤ toRat y := by linarith
  have hpart := (rounds_mul h.gap hf.finite).mem_Icc (y := 0.0) rfl hy hlow hhigh
  rw [toRat_zero] at hpart
  exact ⟨hpart.1, hpart.2.1, hpart.2.2.trans hle⟩

theorem Spans.interpolation_mem (h : Spans a b) (hf : IsFraction f) :
    (a + (b - a) * f).isFinite = true ∧ toRat a ≤ toRat (a + (b - a) * f) ∧
      toRat (a + (b - a) * f) ≤ toRat b := by
  obtain ⟨hpart, hpos, hle⟩ := h.part hf
  exact (rounds_add h.lower hpart).mem_Icc h.lower h.upper (by linarith) (by linarith)

theorem Spans.interpolation_mono (h : Spans a b) (hf : IsFraction f) (hg : IsFraction g)
    (hfg : toRat f ≤ toRat g) : toRat (a + (b - a) * f) ≤ toRat (a + (b - a) * g) := by
  have hfpart := (h.part hf).1
  have hgpart := (h.part hg).1
  have hparts := (rounds_mul h.gap hf.finite).toRat_mono (rounds_mul h.gap hg.finite) hfpart hgpart
    (mul_le_mul_of_nonneg_left hfg h.gap_nonneg)
  exact (rounds_add h.lower hfpart).toRat_mono (rounds_add h.lower hgpart)
    (h.interpolation_mem hf).1 (h.interpolation_mem hg).1 (add_le_add_right hparts _)

/-- Where the gap is too large for a double, interpolation is infinite. -/
theorem interpolation_of_not_isFinite (ha : a.isFinite = true) (hb : b.isFinite = true)
    (hab : toRat a ≤ toRat b) (hgap : (b - a).isFinite = false) (hf : 0 < toRat f) :
    parts (a + (b - a) * f) = .infinity .positive := by
  have hrounds := rounds_sub hb ha
  have hgapparts : parts (b - a) = .infinity .positive := by
    have hlevel := (rounds_toRat (x := 0.0) rfl).level_mono hrounds (by rw [toRat_zero]; linarith)
    have hnan := isNaN_eq_false.mp hrounds.isNaN_eq_false
    rw [isFinite_eq] at hgap
    cases hparts : parts (b - a) with
    | notANumber => exact absurd hparts hnan
    | zero s =>
      rw [hparts] at hgap
      cases hgap
    | finite s m e hm =>
      rw [hparts] at hgap
      cases hgap
    | infinity s =>
      cases s with
      | positive => rfl
      | negative =>
        rw [hparts] at hlevel
        exact absurd hlevel (by decide)
  obtain ⟨m, e, hm, hfparts⟩ : ∃ m e hm, parts f = .finite .positive m e hm := by
    rw [toRat] at hf
    cases hparts : parts f with
    | finite s m e hm =>
      cases s with
      | positive => exact ⟨m, e, hm, rfl⟩
      | negative =>
        simp only [hparts, scaled_negative] at hf
        exact absurd (mul_two_pow_nonneg m e) (by linarith)
    | _ =>
      rw [hparts] at hf
      exact absurd hf (lt_irrefl 0)
  have hpart : (b - a) * f = ofParts (.infinity .positive) := by
    have hmul : (b - a) * f = ofParts (UnpackedFloat.mul .binary64 (parts (b - a)) (parts f)) := rfl
    rw [hmul, hgapparts, hfparts]
    rfl
  have hadd : a + (b - a) * f = ofParts (UnpackedFloat.add .binary64 (parts a) (parts ((b - a) * f))) := rfl
  have hinfinity : parts (ofParts (.infinity .positive)) = .infinity .positive := parts_ofParts trivial
  rw [hadd, hpart, hinfinity]
  obtain ⟨s, hparts, -⟩ | ⟨s, m, e, hm, hparts, -⟩ := magnitude_cases ha
  all_goals
    rw [hparts]
    exact hinfinity

theorem toRat_eq_div (h : x.isFinite = true) (hx : 0 ≤ toRat x) :
    toRat x = (magnitude x).fraction.1 / (magnitude x).fraction.2 := by
  obtain ⟨s, hparts, hzero, -⟩ | ⟨s, m, e, hm, hparts, hmagnitude, -⟩ := magnitude_cases h
  · rw [toRat_of_zero hparts, Binary.fraction, hzero]
    simp
  · rw [toRat_of_finite hparts] at hx ⊢
    rw [hmagnitude, Binary.fraction]
    cases s with
    | negative =>
      rw [scaled_negative] at hx
      have hpos : (0 : ℚ) < m * 2 ^ e := by positivity
      linarith
    | positive =>
      rw [scaled_positive]
      obtain ⟨k, rfl | rfl⟩ := e.eq_nat_or_neg
      · simp
      · simp [div_eq_mul_inv]

theorem whole_of_quarters {i : Nat} (h : x.isFinite = true) (hx : toRat x = i / 4) :
    wholePart x = i / 4 ∧ wholeAbove x = (i + 3) / 4 := by
  have hden : 0 < (magnitude x).fraction.2 := Nat.two_pow_pos _
  have hquarters : 4 * (magnitude x).fraction.1 = i * (magnitude x).fraction.2 := by
    have hdiv := toRat_eq_div h (by rw [hx]; positivity)
    rw [hx, div_eq_div_iff (by norm_num) (by exact_mod_cast hden.ne')] at hdiv
    have hswap := hdiv.symm
    rw [mul_comm] at hswap
    exact_mod_cast hswap
  rw [wholePart, wholeAbove]
  generalize (magnitude x).fraction = pair at hden hquarters
  obtain ⟨num, den⟩ := pair
  dsimp only at hden hquarters ⊢
  constructor
  · rw [← Nat.mul_div_mul_left num den (show 0 < 4 by decide), hquarters,
      Nat.mul_div_mul_right i 4 hden]
  · have hlow := Nat.mul_le_mul_right den (show 4 * ((i + 3) / 4) ≤ i + 3 by omega)
    have hhigh := Nat.mul_le_mul_right den (show i ≤ 4 * ((i + 3) / 4) by omega)
    generalize (i + 3) / 4 = rank at hlow hhigh ⊢
    rw [Nat.mul_assoc] at hlow hhigh
    rw [Nat.add_mul] at hlow
    refine Nat.div_eq_of_lt_le (by omega) ?_
    rw [Nat.succ_mul]
    omega

theorem isFinite_ofNat {n : Nat} (h : n < 2 ^ 64) : (Float.ofNat n).isFinite = true := by
  rw [ofNat_eq_toFloat h]
  exact isFinite_toFloat _

/-- A number of at most 53 binary digits is a double. -/
theorem toRat_ofNat_of_lt {n : Nat} (h : n < 2 ^ 53) : toRat (Float.ofNat n) = n := by
  obtain rfl | hn := Nat.eq_zero_or_pos n
  · exact toRat_zero.trans Nat.cast_zero.symm
  have hword : n < 2 ^ 64 := h.trans (by decide)
  obtain ⟨m, k, e, hdigits⟩ :=
    (rounds_ofNat hword).exists_digits (by exact_mod_cast hn) (isFinite_ofNat hword)
  by_cases he : e ≤ 0
  · exact hdigits.exact n 0 he (by simp)
  · -- a number with digits below one is greater
    have hfull : 2 ^ 52 ≤ m := hdigits.full.resolve_right (by omega)
    obtain ⟨j, rfl⟩ : ∃ j : Nat, e = j + 1 := ⟨(e - 1).toNat, by omega⟩
    have hkept := hdigits.kept
    have hkept : m * 2 ^ (j + 1) ≤ n := by exact_mod_cast hkept
    have hone : 2 ^ 1 ≤ 2 ^ (j + 1) := Nat.pow_le_pow_right (by decide) (by omega)
    have hlarge := Nat.mul_le_mul hfull hone
    omega

/-- A double with more than 53 digits before the point has none behind it. -/
theorem dvd_of_quarters {i : Nat} (h : x.isFinite = true) (hx : toRat x = i / 4)
    (hi : 2 ^ 55 ≤ i) : 4 ∣ i := by
  have hlarge : (2 : ℚ) ^ 55 ≤ i := by exact_mod_cast hi
  obtain ⟨s, hparts, -⟩ | ⟨s, m, e, hm, hparts, -⟩ := magnitude_cases h
  · rw [toRat_of_zero hparts] at hx
    linarith
  rw [toRat_of_finite hparts] at hx
  cases s with
  | negative =>
    rw [scaled_negative] at hx
    linarith [mul_two_pow_nonneg m e]
  | positive =>
    rw [scaled_positive] at hx
    have he : 0 ≤ e := by
      by_contra hneg
      have hm53 : (m : ℚ) < 2 ^ 53 := by exact_mod_cast (hparts ▸ canonical_parts x).1
      have hone : (2 : ℚ) ^ e ≤ 1 := zpow_le_one_of_nonpos₀ one_le_two (by omega)
      have hle : (m : ℚ) * 2 ^ e ≤ m := mul_le_of_le_one_right (Nat.cast_nonneg m) hone
      linarith
    obtain ⟨j, rfl⟩ := Int.eq_ofNat_of_zero_le he
    refine ⟨m * 2 ^ j, ?_⟩
    rw [zpow_natCast, eq_div_iff (by norm_num)] at hx
    exact_mod_cast (mul_comm (4 : ℚ) _).trans hx |>.symm

/-- The whole part of a double in quarters is a double. -/
theorem toRat_ofNat_of_quarters {i : Nat} (h : x.isFinite = true) (hx : toRat x = i / 4)
    (hi : i / 4 < 2 ^ 64) : toRat (Float.ofNat (i / 4)) = (i / 4 : Nat) := by
  obtain hsmall | hlarge := Nat.lt_or_ge (i / 4) (2 ^ 53)
  · exact toRat_ofNat_of_lt hsmall
  · have hwhole : ((i / 4 : Nat) : ℚ) = toRat x := by
      have hdvd := dvd_of_quarters h hx (by omega)
      rw [hx, Nat.cast_div hdvd (by norm_num)]
      norm_num
    have hrounds := rounds_ofNat hi
    rw [hwhole] at hrounds ⊢
    exact hrounds.toRat_eq h

end Tabular.Number
