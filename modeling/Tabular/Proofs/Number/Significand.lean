import Tabular.Proofs.Number.Order

/-!
# Rounded significands

A scaled number is shifted to the exponent of its last kept digit, and the shifted significand is
rounded by what stood behind it. Both steps keep the order of numbers. What is packed in the end is the
double of this significand and exponent; where rounding carried into a digit more, this is the next
power of two, at the same level, and where it is too large for a double, infinity.
-/
namespace Tabular.Number

open Float.Model Float.Model.UnpackedFloat

/-- A shifted number with the digits that went before it, in quarters of its last digit. -/
def weight (em : ExtendedMantissa) : Nat :=
  4 * em.mantissa + 2 * em.roundBit.toNat + em.stickyBit.toNat

theorem weight_shiftRightOne (em : ExtendedMantissa) :
    weight em.shiftRightOne = 2 * em.mantissa + (em.roundBit || em.stickyBit).toNat := by
  obtain ⟨m, roundBit, stickyBit⟩ := em
  have hdigit : (m % 2 != 0).toNat = m % 2 := by
    obtain h | h := Nat.mod_two_eq_zero_or_one m <;> rw [h] <;> rfl
  simp only [ExtendedMantissa.shiftRightOne, weight, hdigit]
  omega

theorem weight_shiftRight_mono {a b : ExtendedMantissa} (h : weight a ≤ weight b) (k : Nat) :
    weight (a >>> k) ≤ weight (b >>> k) := by
  induction k with
  | zero => exact h
  | succ k ih =>
    have hstep (em : ExtendedMantissa) : em >>> (k + 1) = (em >>> k).shiftRightOne := rfl
    rw [hstep, hstep, weight_shiftRightOne, weight_shiftRightOne]
    generalize a >>> k = a at ih
    generalize b >>> k = b at ih
    obtain ⟨m, roundBit, stickyBit⟩ := a
    obtain ⟨n, roundBit', stickyBit'⟩ := b
    cases roundBit <;> cases stickyBit <;> cases roundBit' <;> cases stickyBit' <;>
      simp [weight] at ih ⊢ <;> omega

theorem roundedMantissa_mono {a b : ExtendedMantissa} (h : weight a ≤ weight b) :
    a.roundedMantissa ≤ b.roundedMantissa := by
  obtain ⟨m, roundBit, stickyBit⟩ := a
  obtain ⟨n, roundBit', stickyBit'⟩ := b
  cases roundBit <;> cases stickyBit <;> cases roundBit' <;> cases stickyBit' <;>
    simp [weight, ExtendedMantissa.roundedMantissa, ExtendedMantissa.accuracy,
      Accuracy.roundToNearestEven] at h ⊢ <;> omega

/-- A number without its last `k` binary digits, rounded to the nearest one, or the even one of two. -/
def shortened (m k : Nat) : Nat := ((⟨m, false, false⟩ : ExtendedMantissa) >>> k).roundedMantissa

theorem shortened_mono {m n : Nat} (h : m ≤ n) (k : Nat) : shortened m k ≤ shortened n k :=
  roundedMantissa_mono (weight_shiftRight_mono (by simpa [weight] using h) k)

theorem le_shortened (m k : Nat) : m / 2 ^ k ≤ shortened m k :=
  (shiftRight_mantissa ⟨m, false, false⟩ k).symm.trans_le (le_roundedMantissa _)

theorem shortened_le (m k : Nat) : shortened m k ≤ m / 2 ^ k + 1 :=
  (roundedMantissa_le _).trans_eq (congrArg (· + 1) (shiftRight_mantissa ⟨m, false, false⟩ k))

theorem shortened_mul_two_pow (m j k : Nat) : shortened (m * 2 ^ j) (j + k) = shortened m k := by
  rw [shortened, shiftRight_add, shiftRight_exact, shortened]

theorem shortened_exact (m k : Nat) : shortened (m * 2 ^ k) k = m := shortened_mul_two_pow m k 0

variable {m n : Nat} {e f : Int}

/-- The exponent of the digits to which a scaled number is rounded. -/
def target (m : Nat) (e : Int) : Int := max (m.log2 + e - 52) (-1074)

/-- The significand of a scaled number that is rounded. The first digit may have been carried. -/
def significand (m : Nat) (e : Int) : Nat := shortened m (target m e - e).toNat

theorem target_mul_two_pow (hm : m ≠ 0) (e : Int) (k : Nat) :
    target (m * 2 ^ k) (e - k) = target m e := by
  rw [target, log2_mul_two_pow hm, target]
  omega

theorem significand_mul_two_pow (hm : m ≠ 0) (he : e ≤ target m e) (k : Nat) :
    significand (m * 2 ^ k) (e - k) = significand m e := by
  have hcount : (target m e - (e - k)).toNat = k + (target m e - e).toNat := by omega
  rw [significand, target_mul_two_pow hm, hcount, shortened_mul_two_pow, significand]

theorem shift_eq (he : e ≤ target m e) : shiftToTargetExponent .binary64 m e .exact =
    ((⟨m, false, false⟩ : ExtendedMantissa) >>> (target m e - e).toNat, target m e) := by
  have hexponent : e + ((target m e - e).toNat : Int) = target m e := by omega
  rw [shiftToTargetExponent, targetExponent_eq, ← target, shiftToExponent, hexponent]
  rfl

theorem div_lt_of_target (he : e ≤ target m e) : m / 2 ^ (target m e - e).toNat < 2 ^ 53 := by
  have hdigits := shift_fst_lt m e .exact
  rwa [shift_eq he, shiftRight_mantissa] at hdigits

theorem le_div_of_target (htarget : -1074 < target m e) (he : e ≤ target m e) :
    2 ^ 52 ≤ m / 2 ^ (target m e - e).toNat := by
  have hlog : target m e = m.log2 + e - 52 := by
    rw [target] at htarget ⊢
    omega
  have hm : m ≠ 0 := by
    rintro rfl
    rw [Nat.log2_zero] at hlog
    omega
  have hself : 2 ^ m.log2 ≤ m := Nat.log2_self_le hm
  rw [Nat.le_div_iff_mul_le (Nat.two_pow_pos _), ← Nat.pow_add]
  exact (Nat.pow_le_pow_right (by decide) (by omega)).trans hself

theorem significand_le (he : e ≤ target m e) : significand m e ≤ 2 ^ 53 :=
  (shortened_le _ _).trans (div_lt_of_target he)

theorem le_significand (htarget : -1074 < target m e) (he : e ≤ target m e) :
    2 ^ 52 ≤ significand m e :=
  (le_div_of_target htarget he).trans (le_shortened _ _)

theorem steps_mono_of_le (h : m ≤ n) (e : Int) (hm : e ≤ target m e) (hn : e ≤ target n e) :
    steps (significand m e) (target m e) ≤ steps (significand n e) (target n e) := by
  have htarget : target m e ≤ target n e := by
    have hlog : m.log2 ≤ n.log2 := by
      by_cases hzero : m = 0
      · simp [hzero]
      · exact (Nat.le_log2 (by omega)).mpr ((Nat.log2_self_le hzero).trans h)
    unfold target
    omega
  obtain heq | hlt := htarget.eq_or_lt
  · have hle := shortened_mono h (target m e - e).toNat
    rw [significand, significand, ← heq]
    exact Nat.add_le_add_left hle _
  · have hlow : -1074 ≤ target m e := le_max_right _ _
    have hcarried := significand_le hm
    have hfull := le_significand (hlow.trans_lt hlt) hn
    unfold steps
    omega

theorem round_eq_zero (s : Sign) (he : e ≤ target m e) (h : significand m e = 0) :
    roundWithAccuracy .binary64 s m e .exact = .zero s := by
  have hrounded : ((⟨m, false, false⟩ : ExtendedMantissa) >>> (target m e - e).toNat).roundedMantissa =
      0 := h
  have hzero : (shiftToTargetExponent .binary64 0 (target m e) .exact).1.mantissa = 0 := by
    rw [shiftToTargetExponent, shiftToExponent]
    dsimp only
    rw [shiftRight_mantissa, ofMantissaAndAccuracy_mantissa, Nat.zero_div]
  rw [roundWithAccuracy, shift_eq he]
  dsimp only
  rw [hrounded]
  exact dif_pos hzero

theorem round_eq_finite (s : Sign) (he : e ≤ target m e) (h : 0 < significand m e)
    (hlt : significand m e < 2 ^ 53) : roundWithAccuracy .binary64 s m e .exact =
      .finite s (significand m e) (target m e) h := by
  have hrounded : ((⟨m, false, false⟩ : ExtendedMantissa) >>> (target m e - e).toNat).roundedMantissa =
      significand m e := rfl
  have hlow : -1074 ≤ target m e := le_max_right _ _
  have hlog : (significand m e).log2 < 53 := (Nat.log2_lt h.ne').mpr hlt
  have hcount : (max (((significand m e).log2 : Int) + target m e - 52) (-1074) - target m e).toNat = 0 := by
    omega
  have hagain : shiftToTargetExponent .binary64 (significand m e) (target m e) .exact =
      (⟨significand m e, false, false⟩, target m e) := by
    rw [shiftToTargetExponent, targetExponent_eq, shiftToExponent, hcount]
    exact congrArg _ (Int.add_zero _)
  rw [roundWithAccuracy, shift_eq he]
  simp only [hrounded, hagain]
  exact dif_neg h.ne'

theorem round_eq_carried (s : Sign) (he : e ≤ target m e) (h : significand m e = 2 ^ 53) :
    roundWithAccuracy .binary64 s m e .exact =
      .finite s (2 ^ 52) (target m e + 1) (Nat.two_pow_pos 52) := by
  have hrounded : ((⟨m, false, false⟩ : ExtendedMantissa) >>> (target m e - e).toNat).roundedMantissa =
      2 ^ 52 * 2 ^ 1 := h
  have hlow : -1074 ≤ target m e := le_max_right _ _
  have hagain : shiftToTargetExponent .binary64 (2 ^ 52 * 2 ^ 1) (target m e) .exact =
      (⟨2 ^ 52, false, false⟩, target m e + 1) := by
    have htarget : target (2 ^ 52 * 2 ^ 1) (target m e) = target m e + 1 := by
      have hlog : (2 ^ 52 * 2 ^ 1).log2 = 53 := by decide
      rw [target, hlog]
      omega
    have hcount : (target m e + 1 - target m e).toNat = 1 := by omega
    rw [shift_eq (by omega), htarget, hcount, shiftRight_exact]
  rw [roundWithAccuracy, shift_eq he]
  simp only [hrounded, hagain]
  exact dif_neg (by decide)

/-- A number too large for a double is packed as infinity. -/
theorem ofParts_of_lt (s : Sign) {hm : 0 < m} (he : 971 < e) :
    ofParts (.finite s m e hm) = ofParts (.infinity s) := by
  have hbiased : (e + Format.binary64.exponentBias + (52 : Nat)).toNat = (e + 1075).toNat := by
    rw [bias_eq]
    omega
  have hpack : UnpackedFloat.pack .binary64 (.finite s m e hm) = packedInfinity .binary64 s := by
    rw [UnpackedFloat.pack]
    simp only [hbiased]
    exact if_pos (by omega)
  rw [← Float.toBits_inj, ← UInt64.toBitVec_inj]
  exact hpack

/-- The parts of the double to which a scaled number is rounded are the significand and the exponent,
one step apart if a digit was carried, or zero, or infinity if they are too large. -/
theorem parts_round (s : Sign) (he : e ≤ target m e) :
    (parts (ofParts (roundWithAccuracy .binary64 s m e .exact)) = .infinity s ∧
      2047 * 2 ^ 52 ≤ steps (significand m e) (target m e)) ∨
    (parts (ofParts (roundWithAccuracy .binary64 s m e .exact)) = .zero s ∧
      significand m e = 0 ∧ target m e = -1074) ∨
    ∃ (n k : Nat) (hn : 0 < n), parts (ofParts (roundWithAccuracy .binary64 s m e .exact)) =
        .finite s n (target m e + k) hn ∧ n * 2 ^ k = significand m e ∧
      steps n (target m e + k) = steps (significand m e) (target m e) ∧ target m e ≤ 971 := by
  have hlow : -1074 ≤ target m e := le_max_right _ _
  have hinfinity : parts (ofParts (.infinity s)) = .infinity s := by cases s <;> rfl
  have hfull := le_significand (m := m) (e := e)
  obtain hcarried | hlt := (significand_le he).eq_or_lt
  · rw [round_eq_carried s he hcarried, hcarried]
    by_cases hhigh : target m e + 1 ≤ 971
    · have hcanonical : Canonical (.finite s (2 ^ 52) (target m e + 1) (Nat.two_pow_pos 52)) :=
        ⟨by decide, by omega, hhigh, .inl le_rfl⟩
      refine .inr (.inr ⟨2 ^ 52, 1, Nat.two_pow_pos 52, parts_ofParts hcanonical, rfl, ?_, by omega⟩)
      unfold steps
      omega
    · rw [ofParts_of_lt s (by omega), hinfinity]
      refine .inl ⟨rfl, ?_⟩
      unfold steps
      omega
  obtain hzero | hpos := Nat.eq_zero_or_pos (significand m e)
  · have htarget : target m e = -1074 := by
      by_contra hne
      have hfull := hfull (by omega) he
      omega
    rw [round_eq_zero s he hzero]
    exact .inr (.inl ⟨by cases s <;> rfl, hzero, htarget⟩)
  · rw [round_eq_finite s he hpos hlt]
    by_cases hhigh : target m e ≤ 971
    · have hcanonical : Canonical (.finite s (significand m e) (target m e) hpos) := by
        refine ⟨hlt, hlow, hhigh, ?_⟩
        by_cases hleast : target m e = -1074
        · exact .inr hleast
        · exact .inl (hfull (by omega) he)
      refine .inr (.inr ⟨_, 0, hpos, ?_, Nat.mul_one _, ?_, hhigh⟩)
      · rw [parts_ofParts hcanonical]
        simp
      · simp
    · have hfull := hfull (by omega) he
      rw [ofParts_of_lt s (by omega), hinfinity]
      refine .inl ⟨rfl, ?_⟩
      unfold steps
      omega

/-- What a scaled number is rounded to is the double at the level of its significand and exponent, or
infinity. -/
theorem level_round (s : Sign) (he : e ≤ target m e) :
    level (parts (ofParts (roundWithAccuracy .binary64 s m e .exact))) =
      directed s (min (steps (significand m e) (target m e)) (2047 * 2 ^ 52)) := by
  obtain ⟨hparts, hle⟩ | ⟨hparts, hzero, htarget⟩ | ⟨n, k, hn, hparts, -, hsteps, -⟩ := parts_round s he
  · rw [hparts, min_eq_right hle, level]
  · rw [hparts, hzero, htarget]
    cases s <;> decide
  · have hcanonical := canonical_parts (ofParts (roundWithAccuracy .binary64 s m e .exact))
    rw [hparts] at hcanonical ⊢
    have hlt := hcanonical.steps_lt
    rw [level, hsteps] at *
    rw [min_eq_left hlt.le]

end Tabular.Number
