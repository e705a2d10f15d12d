import Tabular.Proofs.Number.Significand

/-!
# Doubles as rationals

A finite double stands for a rational number, and sums, differences and products of doubles are the
exact results rounded to doubles. Rounding keeps the order of numbers and keeps doubles, so that a
result lies between two doubles if the exact one does. What is said further of its digits is what
interpolation needs: a result has no digits below those of the exact one, and three quarters of it are
no more than a double below the exact one.
-/
namespace Tabular.Number

open Float.Model Float.Model.UnpackedFloat

variable {m n : Nat} {e f : Int}

/-- A scaled number, with its sign. -/
def scaled (s : Sign) (m : Nat) (e : Int) : ℚ := directed s m * 2 ^ e

theorem scaled_positive (m : Nat) (e : Int) : scaled .positive m e = m * 2 ^ e := by
  simp [scaled, directed]

theorem scaled_negative (m : Nat) (e : Int) : scaled .negative m e = -(m * 2 ^ e) := by
  simp [scaled, directed]

theorem mul_two_pow_nonneg (m : Nat) (e : Int) : (0 : ℚ) ≤ m * 2 ^ e := by positivity

theorem mul_two_pow_shift (m : Nat) (e : Int) (k : Nat) :
    ((m * 2 ^ k : Nat) : ℚ) * 2 ^ (e - k) = m * 2 ^ e := by
  rw [Nat.cast_mul, Nat.cast_pow, Nat.cast_ofNat, mul_assoc, ← zpow_natCast, ← zpow_add₀ two_ne_zero]
  congr 2
  omega

theorem target_zero (he : e ≤ target 0 e) : target 0 e = -1074 := by
  rw [target, Nat.log2_zero] at he ⊢
  omega

theorem significand_zero (e : Int) : significand 0 e = 0 := by
  have hexact := shortened_exact 0 (target 0 e - e).toNat
  rwa [Nat.zero_mul] at hexact

/-- A greater number is not rounded to a lower level. -/
theorem steps_mono (he : e ≤ target m e) (hf : f ≤ target n f)
    (h : (m : ℚ) * 2 ^ e ≤ n * 2 ^ f) :
    steps (significand m e) (target m e) ≤ steps (significand n f) (target n f) := by
  obtain rfl | hm := eq_or_ne m 0
  · rw [significand_zero, target_zero he]
    exact Nat.zero_le _
  have hn : n ≠ 0 := by
    rintro rfl
    have hpos : (0 : ℚ) < m * 2 ^ e := by positivity
    simp only [Nat.cast_zero, zero_mul] at h
    exact hpos.not_ge h
  -- brought to one exponent the numbers are as their significands
  obtain ⟨j, hj⟩ : ∃ j : Nat, (j : Int) = e - min e f := ⟨(e - min e f).toNat, by omega⟩
  obtain ⟨k, hk⟩ : ∃ k : Nat, (k : Int) = f - min e f := ⟨(f - min e f).toNat, by omega⟩
  have hexponent : f - k = e - j := by omega
  have hle : m * 2 ^ j ≤ n * 2 ^ k := by
    rw [← mul_two_pow_shift m e j, ← mul_two_pow_shift n f k, hexponent] at h
    exact_mod_cast le_of_mul_le_mul_right h (zpow_pos two_pos _)
  have hmono := steps_mono_of_le hle (e - j) (by rw [target_mul_two_pow hm]; omega)
    (by rw [← hexponent, target_mul_two_pow hn]; omega)
  rwa [significand_mul_two_pow hm he, target_mul_two_pow hm, ← hexponent,
    significand_mul_two_pow hn hf, target_mul_two_pow hn] at hmono

/-- The double is the one to which a number is rounded. -/
def Rounds (q : ℚ) (x : Float) : Prop := ∃ s m e, e ≤ target m e ∧ q = scaled s m e ∧
  x = ofParts (roundWithAccuracy .binary64 s m e .exact)

namespace Rounds

variable {p q : ℚ} {x y : Float}

/-- Rounding keeps the order of numbers. -/
theorem level_mono (hx : Rounds p x) (hy : Rounds q y) (h : p ≤ q) :
    level (parts x) ≤ level (parts y) := by
  obtain ⟨s, m, e, he, rfl, rfl⟩ := hx
  obtain ⟨t, n, f, hf, rfl, rfl⟩ := hy
  rw [level_round s he, level_round t hf]
  have hmpos := mul_two_pow_nonneg m e
  have hnpos := mul_two_pow_nonneg n f
  cases s <;> cases t <;> simp only [scaled_positive, scaled_negative, directed] at h ⊢
  · have hmono := steps_mono hf he (by linarith)
    omega
  · omega
  · have hmono := steps_mono he (f := -1074) (n := 0) (by decide) (by simp; linarith)
    have hmono' := steps_mono hf (f := -1074) (n := 0) (by decide) (by simp; linarith)
    have hzero : steps (significand 0 (-1074)) (target 0 (-1074)) = 0 := by decide
    omega
  · have hmono := steps_mono he hf h
    omega

theorem isNaN_eq_false (h : Rounds q x) : x.isNaN = false := by
  obtain ⟨s, m, e, -, -, rfl⟩ := h
  exact isNaN_ofParts (round_ne_notANumber _ _ _ _)

end Rounds

/-- The number that a finite double stands for. -/
def toRat (x : Float) : ℚ :=
  match parts x with
  | .finite s m e _ => scaled s m e
  | _ => 0

theorem toRat_of_finite {x : Float} {s : Sign} {hm : 0 < m} (h : parts x = .finite s m e hm) :
    toRat x = scaled s m e := by
  rw [toRat, h]

theorem toRat_of_zero {x : Float} {s : Sign} (h : parts x = .zero s) : toRat x = 0 := by
  rw [toRat, h]

theorem toRat_zero : toRat 0.0 = 0 := toRat_of_zero (s := .positive) rfl

theorem Canonical.target_eq {s : Sign} {hm : 0 < m} (h : Canonical (.finite s m e hm)) :
    target m e = e := by
  obtain ⟨hm53, hlow, -, hnormal⟩ := h
  have hlt : m.log2 < 53 := (Nat.log2_lt hm.ne').mpr hm53
  unfold target
  obtain hbits | hleast := hnormal
  · have hge := (Nat.le_log2 (n := m) (k := 52) hm.ne').mpr hbits
    omega
  · omega

theorem rounds_zero (s : Sign) : Rounds 0 (ofParts (.zero s)) := by
  refine ⟨s, 0, -1074, by decide, ?_, ?_⟩
  · cases s <;> simp [scaled, directed]
  · rw [round_eq_zero s (by decide) (significand_zero _)]

/-- A finite double is rounded to itself. -/
theorem rounds_toRat {x : Float} (h : x.isFinite = true) : Rounds (toRat x) x := by
  obtain ⟨s, hparts, -⟩ | ⟨s, m, e, hm, hparts, -⟩ := magnitude_cases h
  · rw [toRat_of_zero hparts, ← ofParts_parts x, hparts]
    exact rounds_zero s
  · have hcanonical := canonical_parts x
    rw [hparts] at hcanonical
    have hround := round_of_canonical (k := 0) (by simpa using hcanonical)
    simp only [Nat.pow_zero, Nat.mul_one, Nat.cast_zero, Int.add_zero] at hround
    refine ⟨s, m, e, hcanonical.target_eq.ge, toRat_of_finite hparts, ?_⟩
    rw [hround, ← hparts, ofParts_parts]

theorem rounds_round (s : Sign) (hm : 0 < m) (e : Int) :
    Rounds (scaled s m e) (ofParts (UnpackedFloat.round .binary64 s m e)) := by
  obtain ⟨k, hk⟩ : ∃ k : Nat, k = (e - target m e).toNat := ⟨_, rfl⟩
  have htarget : target (m * 2 ^ k) (e - k) = target m e := target_mul_two_pow hm.ne' e k
  refine ⟨s, m * 2 ^ k, e - k, by omega, ?_, ?_⟩
  · have hshift := mul_two_pow_shift m e k
    cases s with
    | negative => rw [scaled_negative, scaled_negative, hshift]
    | positive => rw [scaled_positive, scaled_positive, hshift]
  · rw [UnpackedFloat.round, targetExponent_eq, ← target, decreaseExponent, ← hk, Nat.shiftLeft_eq]

theorem rounds_normalize (i e : Int) (s : Sign) :
    Rounds (i * 2 ^ e) (ofParts (UnpackedFloat.normalize .binary64 i e s)) := by
  obtain hlt | rfl | hgt := lt_trichotomy i 0
  · have hrounds := rounds_round .negative (show 0 < (-i).toNat by omega) e
    have hdirected : directed .negative (-i).toNat = i := by
      rw [directed, Int.toNat_of_nonneg (by omega), neg_neg]
    rw [scaled, hdirected] at hrounds
    rwa [UnpackedFloat.normalize, Int.compare_eq_lt.mpr hlt]
  · rw [Int.cast_zero, zero_mul]
    exact rounds_zero s
  · have hrounds := rounds_round .positive (show 0 < i.toNat by omega) e
    have hdirected : directed .positive i.toNat = i := Int.toNat_of_nonneg hgt.le
    rw [scaled, hdirected] at hrounds
    rwa [UnpackedFloat.normalize, Int.compare_eq_gt.mpr hgt]

theorem scaled_decreaseExponent (s : Sign) (m : Nat) {e g : Int} (h : g ≤ e) :
    (s.apply ((m <<< (e - g).toNat : Nat) : Int) : ℚ) * 2 ^ g = scaled s m e := by
  have hshift := mul_two_pow_shift m e (e - g).toNat
  rw [Int.toNat_of_nonneg (by omega), sub_sub_cancel] at hshift
  rw [Nat.shiftLeft_eq]
  cases s with
  | negative => rw [scaled_negative, ← hshift, Sign.apply, Int.cast_neg, Int.cast_natCast, neg_mul]
  | positive => rw [scaled_positive, ← hshift, Sign.apply, Int.cast_natCast]

variable {x y : Float}

theorem rounds_add (hx : x.isFinite = true) (hy : y.isFinite = true) :
    Rounds (toRat x + toRat y) (x + y) := by
  have hadd : x + y = ofParts (UnpackedFloat.add .binary64 (parts x) (parts y)) := rfl
  obtain ⟨s, hxparts, -⟩ | ⟨s, m, e, hm, hxparts, -⟩ := magnitude_cases hx
  · rw [toRat_of_zero hxparts, zero_add, hadd, hxparts]
    obtain ⟨t, hyparts, -⟩ | ⟨t, n, f, hn, hyparts, -⟩ := magnitude_cases hy
    · rw [toRat_of_zero hyparts, hyparts, UnpackedFloat.add]
      split
      · exact rounds_zero s
      · exact rounds_zero .positive
    · have hsum : UnpackedFloat.add .binary64 (.zero s) (parts y) = parts y := by
        rw [hyparts]
        rfl
      rw [hsum, ofParts_parts]
      exact rounds_toRat hy
  · obtain ⟨t, hyparts, -⟩ | ⟨t, n, f, hn, hyparts, -⟩ := magnitude_cases hy
    · have hsum : UnpackedFloat.add .binary64 (parts x) (.zero t) = parts x := by
        rw [hxparts]
        rfl
      rw [toRat_of_zero hyparts, add_zero, hadd, hyparts, hsum, ofParts_parts]
      exact rounds_toRat hx
    · have hrounds := rounds_normalize (s.apply ((m <<< (e - min e f).toNat : Nat) : Int) +
        t.apply ((n <<< (f - min e f).toNat : Nat) : Int)) (min e f) .positive
      rw [Int.cast_add, add_mul, scaled_decreaseExponent s m (min_le_left e f),
        scaled_decreaseExponent t n (min_le_right e f)] at hrounds
      rw [toRat_of_finite hxparts, toRat_of_finite hyparts, hadd, hxparts, hyparts]
      exact hrounds

theorem toRat_neg (x : Float) : toRat (-x) = -toRat x := by
  rw [toRat, toRat, parts_neg]
  cases parts x with
  | finite s m e hm => cases s <;> simp [UnpackedFloat.neg, scaled, directed]
  | _ => exact neg_zero.symm

theorem sub_eq_add (x y : Float) : x - y = x + -y := by
  have hsub : x - y = ofParts (UnpackedFloat.sub .binary64 (parts x) (parts y)) := rfl
  have hadd : x + -y = ofParts (UnpackedFloat.add .binary64 (parts x) (parts (-y))) := rfl
  rw [hsub, hadd, parts_neg]
  refine congrArg ofParts ?_
  cases parts x <;> cases parts y <;> try rfl
  case finite.finite s m e hm t n f hn =>
    have happly (i : Int) : (-t).apply i = -t.apply i := by cases t <;> simp [Sign.apply]
    simp only [UnpackedFloat.neg, UnpackedFloat.sub, UnpackedFloat.add, happly, sub_eq_add_neg]

theorem rounds_sub (hx : x.isFinite = true) (hy : y.isFinite = true) :
    Rounds (toRat x - toRat y) (x - y) := by
  rw [sub_eq_add, sub_eq_add_neg, ← toRat_neg]
  exact rounds_add hx ((isFinite_neg y).trans hy)

theorem Canonical.le_target_mul {s t : Sign} {hm : 0 < m} {hn : 0 < n}
    (h : Canonical (.finite s m e hm)) (h' : Canonical (.finite t n f hn)) :
    e + f ≤ target (m * n) (e + f) := by
  have hfull {k : Nat} (hk : 2 ^ 52 ≤ k) (hle : k ≤ m * n) : 52 ≤ (m * n).log2 :=
    (Nat.le_log2 (Nat.mul_pos hm hn).ne').mpr (hk.trans hle)
  obtain ⟨-, -, -, hbits | hleast⟩ := h
  · have hlog := hfull hbits (Nat.le_mul_of_pos_right m hn)
    unfold target
    omega
  · obtain ⟨-, -, -, hbits | hleast'⟩ := h'
    · have hlog := hfull hbits (Nat.le_mul_of_pos_left n hm)
      unfold target
      omega
    · unfold target
      omega

theorem directed_mul (s t : Sign) (m n : Nat) :
    directed (s * t) (m * n) = directed s m * directed t n := by
  have hcast : ((m * n : Nat) : Int) = m * n := Nat.cast_mul m n
  cases s <;> cases t
  · exact hcast.trans (neg_mul_neg _ _).symm
  · exact (congrArg _ hcast).trans (neg_mul _ _).symm
  · exact (congrArg _ hcast).trans (mul_neg _ _).symm
  · exact hcast

theorem scaled_mul (s t : Sign) (m n : Nat) (e f : Int) :
    scaled s m e * scaled t n f = scaled (s * t) (m * n) (e + f) := by
  rw [scaled, scaled, scaled, directed_mul, Int.cast_mul, zpow_add₀ two_ne_zero]
  ring

theorem rounds_mul (hx : x.isFinite = true) (hy : y.isFinite = true) :
    Rounds (toRat x * toRat y) (x * y) := by
  have hmul : x * y = ofParts (UnpackedFloat.mul .binary64 (parts x) (parts y)) := rfl
  obtain ⟨s, hxparts, -⟩ | ⟨s, m, e, hm, hxparts, -⟩ := magnitude_cases hx
  · rw [toRat_of_zero hxparts, zero_mul, hmul, hxparts]
    obtain ⟨t, hyparts, -⟩ | ⟨t, n, f, hn, hyparts, -⟩ := magnitude_cases hy
    all_goals
      rw [hyparts]
      exact rounds_zero _
  · obtain ⟨t, hyparts, -⟩ | ⟨t, n, f, hn, hyparts, -⟩ := magnitude_cases hy
    · rw [toRat_of_zero hyparts, mul_zero, hmul, hxparts, hyparts]
      exact rounds_zero _
    · have hle := (hxparts ▸ canonical_parts x).le_target_mul (hyparts ▸ canonical_parts y)
      rw [toRat_of_finite hxparts, toRat_of_finite hyparts, hmul, hxparts, hyparts, scaled_mul]
      exact ⟨_, _, _, hle, rfl, rfl⟩

theorem rounds_ofNat (h : n < 2 ^ 64) : Rounds n (Float.ofNat n) := by
  have hword : n.toUInt64.toNat = n := UInt64.toNat_ofNat_of_lt' h
  rw [ofNat_eq_toFloat h]
  obtain rfl | hpos := Nat.eq_zero_or_pos n
  · rw [Nat.cast_zero]
    exact rounds_zero .positive
  · have hrounds := rounds_round .positive hpos 0
    rw [scaled_positive, zpow_zero, MulOneClass.mul_one] at hrounds
    rwa [toFloat_eq, ofUInt64_eq (by omega), hword]

theorem isFinite_iff_level : x.isFinite = true ↔
    level (.infinity .negative) < level (parts x) ∧ level (parts x) < level (.infinity .positive) := by
  have hcanonical := canonical_parts x
  rw [isFinite_eq]
  cases hparts : parts x with
  | notANumber => decide
  | infinity s => cases s <;> decide
  | zero s => cases s <;> decide
  | finite s m e hm => exact iff_of_true rfl (hparts ▸ hcanonical).level_mem

theorem Rounds.le {q : ℚ} (h : Rounds q x) (hy : y.isFinite = true) (hle : q ≤ toRat y) : x ≤ y :=
  (le_iff_level h.isNaN_eq_false (isNaN_of_isFinite hy)).mpr (h.level_mono (rounds_toRat hy) hle)

theorem Rounds.ge {q : ℚ} (h : Rounds q x) (hy : y.isFinite = true) (hle : toRat y ≤ q) : y ≤ x :=
  (le_iff_level (isNaN_of_isFinite hy) h.isNaN_eq_false).mpr ((rounds_toRat hy).level_mono h hle)

theorem isFinite_of_le_of_le {z : Float} (hx : x.isFinite = true) (hz : z.isFinite = true)
    (hxy : x ≤ y) (hyz : y ≤ z) (hy : y.isNaN = false) : y.isFinite = true := by
  have hxlevel := isFinite_iff_level.mp hx
  have hzlevel := isFinite_iff_level.mp hz
  have hxy := (le_iff_level (isNaN_of_isFinite hx) hy).mp hxy
  have hyz := (le_iff_level hy (isNaN_of_isFinite hz)).mp hyz
  exact isFinite_iff_level.mpr ⟨hxlevel.1.trans_le hxy, hyz.trans_lt hzlevel.2⟩

theorem Canonical.eq_of_steps {s t : Sign} {hm : 0 < m} {hn : 0 < n}
    (h : Canonical (.finite s m e hm)) (h' : Canonical (.finite t n f hn))
    (heq : steps m e = steps n f) : m = n ∧ e = f := by
  obtain hlt | rfl | hgt := lt_trichotomy e f
  · exact absurd heq (h.steps_lt_steps h' hlt).ne
  · exact ⟨Nat.add_left_cancel heq, rfl⟩
  · exact absurd heq (h'.steps_lt_steps h hgt).ne'

theorem level_finite_ne_zero {s : Sign} (hm : 0 < m) : level (.finite s m e hm) ≠ 0 := by
  cases s with
  | negative => exact (level_negative hm).ne
  | positive => exact (level_positive hm).ne'

/-- Doubles at one level stand for one number. -/
theorem toRat_eq_of_level (hx : x.isFinite = true) (hy : y.isFinite = true)
    (h : level (parts x) = level (parts y)) : toRat x = toRat y := by
  obtain ⟨s, hxparts, -⟩ | ⟨s, m, e, hm, hxparts, -⟩ := magnitude_cases hx <;>
    obtain ⟨t, hyparts, -⟩ | ⟨t, n, f, hn, hyparts, -⟩ := magnitude_cases hy <;>
    rw [hxparts, hyparts] at h
  · rw [toRat_of_zero hxparts, toRat_of_zero hyparts]
  · exact absurd h.symm (level_finite_ne_zero hn)
  · exact absurd h (level_finite_ne_zero hm)
  · have hmsteps : 0 < steps m e := Nat.add_pos_right _ hm
    have hnsteps : 0 < steps n f := Nat.add_pos_right _ hn
    have hsteps : s = t ∧ steps m e = steps n f := by
      cases s <;> cases t <;> simp only [level, directed] at h <;>
        first | exact ⟨rfl, by omega⟩ | omega
    obtain ⟨rfl, hsteps⟩ := hsteps
    obtain ⟨rfl, rfl⟩ := (hxparts ▸ canonical_parts x).eq_of_steps (hyparts ▸ canonical_parts y) hsteps
    rw [toRat_of_finite hxparts, toRat_of_finite hyparts]

theorem toRat_le_iff (hx : x.isFinite = true) (hy : y.isFinite = true) :
    toRat x ≤ toRat y ↔ x ≤ y := by
  refine ⟨(rounds_toRat hx).le hy, fun h => ?_⟩
  by_contra hlt
  have hge := (rounds_toRat hy).le hx (not_le.mp hlt).le
  have hx' := isNaN_of_isFinite hx
  have hy' := isNaN_of_isFinite hy
  have heq := toRat_eq_of_level hx hy
    (le_antisymm ((le_iff_level hx' hy').mp h) ((le_iff_level hy' hx').mp hge))
  exact hlt heq.le

/-- A double that is rounded to itself stands for its number. -/
theorem Rounds.toRat_eq (h : Rounds (toRat y) x) (hy : y.isFinite = true) : toRat x = toRat y := by
  have hle := h.le hy le_rfl
  have hge := h.ge hy le_rfl
  have hx := isFinite_of_le_of_le hy hy hge hle h.isNaN_eq_false
  exact le_antisymm ((toRat_le_iff hx hy).mpr hle) ((toRat_le_iff hy hx).mpr hge)

/-- What is rounded between two doubles is between them. -/
theorem Rounds.mem_Icc {q : ℚ} {z : Float} (h : Rounds q x) (hy : y.isFinite = true)
    (hz : z.isFinite = true) (hyq : toRat y ≤ q) (hqz : q ≤ toRat z) :
    x.isFinite = true ∧ toRat y ≤ toRat x ∧ toRat x ≤ toRat z := by
  have hle := h.le hz hqz
  have hge := h.ge hy hyq
  have hx := isFinite_of_le_of_le hy hz hge hle h.isNaN_eq_false
  exact ⟨hx, (toRat_le_iff hy hx).mpr hge, (toRat_le_iff hx hz).mpr hle⟩

theorem Rounds.toRat_mono {p q : ℚ} (h : Rounds p x) (h' : Rounds q y) (hx : x.isFinite = true)
    (hy : y.isFinite = true) (hpq : p ≤ q) : toRat x ≤ toRat y :=
  (toRat_le_iff hx hy).mpr ((le_iff_level h.isNaN_eq_false h'.isNaN_eq_false).mpr (h.level_mono h' hpq))

theorem Rounds.toRat_nonneg {q : ℚ} (h : Rounds q x) (hx : x.isFinite = true) (hq : 0 ≤ q) :
    0 ≤ toRat x := by
  rw [← toRat_zero] at hq ⊢
  exact (rounds_toRat rfl).toRat_mono h rfl hx hq

variable {q : ℚ}

theorem scaled_add (s : Sign) (n : Nat) (e : Int) (k : Nat) :
    scaled s n (e + k) = scaled s (n * 2 ^ k) e := by
  have hshift := mul_two_pow_shift n (e + k) k
  rw [Int.add_sub_cancel] at hshift
  cases s with
  | negative => rw [scaled_negative, scaled_negative, hshift]
  | positive => rw [scaled_positive, scaled_positive, hshift]

/-- A finite double has no digits below the last one of all doubles. -/
theorem exists_units (h : x.isFinite = true) : ∃ i : Int, toRat x = i * 2 ^ (-1074 : Int) := by
  obtain ⟨s, hparts, -⟩ | ⟨s, m, e, hm, hparts, -⟩ := magnitude_cases h
  · exact ⟨0, by rw [toRat_of_zero hparts]; simp⟩
  · obtain ⟨-, hlow, -, -⟩ := hparts ▸ canonical_parts x
    obtain ⟨k, hk⟩ : ∃ k : Nat, (k : Int) = e + 1074 := ⟨(e + 1074).toNat, by omega⟩
    have he : e = -1074 + k := by omega
    exact ⟨directed s (m * 2 ^ k), by rw [toRat_of_finite hparts, he, scaled_add, scaled]⟩

theorem toRat_round (s : Sign) (he : e ≤ target m e)
    (hfinite : (ofParts (roundWithAccuracy .binary64 s m e .exact)).isFinite = true) :
    toRat (ofParts (roundWithAccuracy .binary64 s m e .exact)) =
      scaled s (significand m e) (target m e) ∧ target m e ≤ 971 := by
  obtain ⟨hparts, -⟩ | ⟨hparts, hzero, htarget⟩ | ⟨n, k, hn, hparts, hn', -, hhigh⟩ := parts_round s he
  · rw [isFinite_eq, hparts] at hfinite
    cases hfinite
  · refine ⟨?_, by omega⟩
    rw [toRat_of_zero hparts, hzero]
    cases s <;> simp [scaled, directed]
  · refine ⟨?_, hhigh⟩
    rw [toRat_of_finite hparts, scaled_add, hn']

/-- The digits `n` that are kept of a positive number and the digits `m` that it is rounded to, at one
exponent. A number without further digits is kept. -/
structure Digits (q : ℚ) (x : Float) (n m : Nat) (e : Int) : Prop where
  low : -1074 ≤ e
  high : e ≤ 971
  lt : n < 2 ^ 53
  full : 2 ^ 52 ≤ n ∨ e = -1074
  kept : (n : ℚ) * 2 ^ e ≤ q
  le : m ≤ n + 1
  rounded : toRat x = m * 2 ^ e
  exact (i : Nat) (g : Int) : e ≤ g → q = i * 2 ^ g → toRat x = q

theorem Rounds.exists_digits (h : Rounds q x) (hq : 0 < q) (hx : x.isFinite = true) :
    ∃ n m e, Digits q x n m e := by
  obtain ⟨s, m, e, he, rfl, rfl⟩ := h
  obtain ⟨hrat, hhigh⟩ := toRat_round s he hx
  obtain ⟨k, hk⟩ : ∃ k : Nat, k = (target m e - e).toNat := ⟨_, rfl⟩
  cases s with
  | negative =>
    rw [scaled_negative] at hq
    exact absurd hq (by simp [mul_two_pow_nonneg])
  | positive =>
    rw [scaled_positive] at hq hrat ⊢
    refine ⟨m / 2 ^ k, significand m e, target m e, ?_⟩
    have hexponent : e = target m e - k := by omega
    exact {
      low := le_max_right _ _
      high := hhigh
      lt := hk ▸ div_lt_of_target he
      full := by
        by_cases hleast : target m e = -1074
        · exact .inr hleast
        · have hlow : -1074 ≤ target m e := le_max_right _ _
          exact .inl (hk ▸ le_div_of_target (by omega) he)
      kept := by
        rw [← mul_two_pow_shift _ _ k, ← hexponent]
        exact mul_le_mul_of_nonneg_right (by exact_mod_cast Nat.div_mul_le_self m (2 ^ k)) (by positivity)
      le := hk ▸ shortened_le m _
      rounded := hrat
      exact := by
        intro i g hg hmultiple
        obtain ⟨j, hj⟩ : ∃ j : Nat, (j : Int) = g - target m e := ⟨(g - target m e).toNat, by omega⟩
        have hm : m = i * 2 ^ j * 2 ^ k := by
          have hexponents : g - (j + k : Nat) = e := by omega
          rw [← mul_two_pow_shift i g (j + k), hexponents, Nat.pow_add, ← Nat.mul_assoc] at hmultiple
          exact_mod_cast mul_right_cancel₀ (zpow_ne_zero e two_ne_zero) hmultiple
        have hsignificand : significand m e = i * 2 ^ j := by
          rw [significand, ← hk, hm, shortened_exact]
        rw [hrat, hsignificand, hmultiple, ← mul_two_pow_shift i g j, hj, sub_sub_cancel] }

/-- A number without a part below the last digit of some scale is rounded to such a number. -/
theorem Rounds.exists_multiple {i : Nat} {g : Int} (h : Rounds (i * 2 ^ g) x) (hx : x.isFinite = true) :
    ∃ j : Nat, toRat x = j * 2 ^ g := by
  obtain rfl | hi := Nat.eq_zero_or_pos i
  · rw [Nat.cast_zero, zero_mul, ← toRat_zero] at h
    exact ⟨0, by rw [h.toRat_eq rfl, toRat_zero, Nat.cast_zero, zero_mul]⟩
  obtain ⟨n, m, e, hdigits⟩ := h.exists_digits (by positivity) hx
  by_cases he : e ≤ g
  · exact ⟨i, hdigits.exact i g he rfl⟩
  · obtain ⟨k, hk⟩ : ∃ k : Nat, (k : Int) = e - g := ⟨(e - g).toNat, by omega⟩
    refine ⟨m * 2 ^ k, ?_⟩
    rw [hdigits.rounded, ← mul_two_pow_shift m e k, hk, sub_sub_cancel]

/-- Below a number with no digits beyond those of doubles there is a double that is at least three
quarters of what the number is rounded to. -/
theorem Rounds.exists_below {i : Nat} {g : Int} (h : Rounds (i * 2 ^ g) x) (hg : -1074 ≤ g)
    (hx : x.isFinite = true) :
    ∃ y : Float, y.isFinite = true ∧ toRat y ≤ i * 2 ^ g ∧ 3 / 4 * toRat x ≤ toRat y := by
  obtain rfl | hi := Nat.eq_zero_or_pos i
  · rw [Nat.cast_zero, zero_mul, ← toRat_zero] at h ⊢
    refine ⟨0.0, rfl, le_rfl, ?_⟩
    rw [h.toRat_eq rfl, toRat_zero, mul_zero]
  have hpos : (0 : ℚ) < i * 2 ^ g := by positivity
  obtain ⟨n, m, e, hdigits⟩ := h.exists_digits hpos hx
  obtain hfull | hleast := hdigits.full
  · have hn : 0 < n := by omega
    have hcanonical : Canonical (.finite .positive n e hn) :=
      ⟨hdigits.lt, hdigits.low, hdigits.high, .inl hfull⟩
    have hparts := parts_ofParts hcanonical
    have hrat : toRat (ofParts (.finite .positive n e hn)) = n * 2 ^ e := by
      rw [toRat_of_finite hparts, scaled_positive]
    have hcarry : (m : ℚ) ≤ n + 1 := by exact_mod_cast hdigits.le
    have hlarge : (3 : ℚ) ≤ n := by exact_mod_cast (by omega : 3 ≤ n)
    refine ⟨_, by rw [isFinite_eq, hparts]; rfl, hrat.trans_le hdigits.kept, ?_⟩
    rw [hrat, hdigits.rounded, ← mul_assoc]
    exact mul_le_mul_of_nonneg_right (by linarith) (by positivity)
  · have hexact := hdigits.exact i g (hleast.le.trans hg) rfl
    refine ⟨x, hx, hexact.le, ?_⟩
    rw [hexact]
    linarith

end Tabular.Number
