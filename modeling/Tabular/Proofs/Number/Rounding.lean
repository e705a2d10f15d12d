import Tabular.Proofs.Number.Parts

/-!
# Rounding to doubles

A result is computed exactly, as a natural number scaled by a power of two, and then shifted until
the number has 53 digits or the exponent is the least. A result that is a double already loses
nothing, so that a product with one is the other factor and whole numbers below `2 ^ 53` are kept.
A number of 64 digits is rounded, but stays far below the greatest double and does not become zero.
-/
namespace Tabular.Number

open Float.Model Float.Model.UnpackedFloat

theorem targetExponent_eq (m : Nat) (e : Int) :
    Format.binary64.targetExponent (totalExponent m e) = max (m.log2 + e - 52) (-1074) := by
  have hwidth : ((Format.binary64.mantissaBits : Nat) : Int) = 53 := rfl
  have hleast : Format.binary64.minExponent = -1074 := by decide
  rw [Format.targetExponent, totalExponent, hwidth, hleast]
  omega

theorem shiftRight_mantissa (em : ExtendedMantissa) (k : Nat) :
    (em >>> k).mantissa = em.mantissa / 2 ^ k := by
  induction k with
  | zero => exact (Nat.div_one _).symm
  | succ k ih =>
    have hstep : (em >>> (k + 1)).mantissa = (em >>> k).mantissa / 2 := rfl
    rw [hstep, ih, Nat.div_div_eq_div_mul, Nat.pow_succ]

theorem shiftRight_add (em : ExtendedMantissa) (j k : Nat) : em >>> (j + k) = em >>> j >>> k := by
  induction k with
  | zero => rfl
  | succ k ih => exact congrArg ExtendedMantissa.shiftRightOne ih

theorem shiftRight_exact (m k : Nat) :
    (⟨m * 2 ^ k, false, false⟩ : ExtendedMantissa) >>> k = ⟨m, false, false⟩ := by
  induction k generalizing m with
  | zero => simp [HShiftRight.hShiftRight, Nat.repeat]
  | succ k ih =>
    have hstep : (⟨m * 2 ^ (k + 1), false, false⟩ : ExtendedMantissa) >>> (k + 1) =
        ((⟨m * 2 * 2 ^ k, false, false⟩ : ExtendedMantissa) >>> k).shiftRightOne := by
      rw [Nat.pow_succ', ← Nat.mul_assoc]
      rfl
    rw [hstep, ih]
    simp [ExtendedMantissa.shiftRightOne]

theorem log2_mul_two_pow {m : Nat} (hm : m ≠ 0) (k : Nat) : (m * 2 ^ k).log2 = m.log2 + k := by
  induction k with
  | zero => simp
  | succ k ih =>
    have hne : m * 2 ^ k ≠ 0 := Nat.mul_ne_zero hm (Nat.two_pow_pos k).ne'
    rw [Nat.pow_succ, ← Nat.mul_assoc, Nat.mul_comm, Nat.log2_two_mul hne, ih]
    rfl

/-- A number that has the form of a double once it is shifted is shifted there and no further. -/
theorem shift_of_canonical {s : Sign} {m k : Nat} {e : Int} {hm : 0 < m}
    (h : Canonical (.finite s m (e + k) hm)) :
    shiftToTargetExponent .binary64 (m * 2 ^ k) e .exact = (⟨m, false, false⟩, e + k) := by
  obtain ⟨hm53, hlow, -, hnormal⟩ := h
  have hlog : (m * 2 ^ k).log2 = m.log2 + k := log2_mul_two_pow (by omega) k
  have hlt : m.log2 < 53 := (Nat.log2_lt (by omega)).mpr hm53
  have htarget : max (((m * 2 ^ k).log2 : Int) + e - 52) (-1074) = e + k := by
    rw [hlog]
    obtain hbits | hleast := hnormal
    · have hge := (Nat.le_log2 (n := m) (k := 52) (by omega)).mpr hbits
      omega
    · omega
  have hcount : (e + k - e).toNat = k := by omega
  rw [shiftToTargetExponent, targetExponent_eq, htarget, shiftToExponent, hcount]
  exact congrArg (·, e + (k : Int)) (shiftRight_exact m k)

/-- A number that has the form of a double once it is shifted is rounded to that double. -/
theorem round_of_canonical {s : Sign} {m k : Nat} {e : Int} {hm : 0 < m}
    (h : Canonical (.finite s m (e + k) hm)) :
    roundWithAccuracy .binary64 s (m * 2 ^ k) e .exact = .finite s m (e + k) hm := by
  have hagain := shift_of_canonical (k := 0) (by simpa using h)
  simp only [Nat.pow_zero, Nat.mul_one, Nat.cast_zero, Int.add_zero] at hagain
  have hrounded : (⟨m, false, false⟩ : ExtendedMantissa).roundedMantissa = m := rfl
  rw [roundWithAccuracy, shift_of_canonical h]
  simp only [hrounded, hagain]
  exact dif_neg (by omega)

/-- Where a number is shifted, factors of two may be moved from its exponent into it before. -/
theorem shift_mul_two_pow {m : Nat} {e : Int} (hm : m ≠ 0)
    (he : e ≤ max (m.log2 + e - 52) (-1074)) (k : Nat) :
    shiftToTargetExponent .binary64 (m * 2 ^ k) (e - k) .exact =
      shiftToTargetExponent .binary64 m e .exact := by
  have htarget : max (((m * 2 ^ k).log2 : Int) + (e - k) - 52) (-1074) =
      max (m.log2 + e - 52) (-1074) := by
    rw [log2_mul_two_pow hm k]
    omega
  rw [shiftToTargetExponent, shiftToTargetExponent, targetExponent_eq, targetExponent_eq, htarget]
  generalize max ((m.log2 : Int) + e - 52) (-1074) = target at he
  have hcount : (target - (e - k)).toNat = k + (target - e).toNat := by omega
  have hexponent : e - k + ((target - (e - k)).toNat : Int) = e + ((target - e).toNat : Int) := by
    omega
  have hexact := shiftRight_exact m k
  rw [shiftToExponent, shiftToExponent, hexponent, hcount, shiftRight_add]
  exact congrArg (fun em : ExtendedMantissa => (em >>> (target - e).toNat, _)) hexact

theorem round_mul_two_pow (s : Sign) {m : Nat} {e : Int} (hm : m ≠ 0)
    (he : e ≤ max (m.log2 + e - 52) (-1074)) (k : Nat) :
    roundWithAccuracy .binary64 s (m * 2 ^ k) (e - k) .exact =
      roundWithAccuracy .binary64 s m e .exact := by
  rw [roundWithAccuracy, roundWithAccuracy, shift_mul_two_pow hm he]

theorem parts_one : parts 1.0 = .finite .positive (2 ^ 52) (-52) (Nat.two_pow_pos 52) := rfl

@[simp] theorem mul_one (x : Float) : x * 1.0 = x := by
  have hx := canonical_parts x
  have hmul : x * 1.0 = ofParts (UnpackedFloat.mul .binary64 (parts x) (parts 1.0)) := rfl
  rw [hmul, parts_one]
  conv_rhs => rw [← ofParts_parts x]
  refine congrArg ofParts ?_
  cases hparts : parts x with
  | notANumber => rfl
  | infinity s => cases s <;> rfl
  | zero s => cases s <;> rfl
  | finite s m e hm =>
    have hsign : s * Sign.positive = s := by cases s <;> rfl
    have hshifted : Canonical (.finite s m (e + -52 + (52 : Nat)) hm) := by
      rw [Nat.cast_ofNat, Int.neg_add_cancel_right]
      exact hparts ▸ hx
    rw [UnpackedFloat.mul, hsign, round_of_canonical hshifted]
    simp

theorem toFloat_eq (n : UInt64) : n.toFloat = ofParts (UnpackedFloat.ofUInt64 .binary64 n) := rfl

theorem ofUInt64_eq {n : UInt64} (hn : 0 < n.toNat) : UnpackedFloat.ofUInt64 .binary64 n =
    UnpackedFloat.round .binary64 .positive n.toNat 0 := by
  have hcompare : Ord.compare (n.toNat : Int) 0 = .gt := by
    rw [compare_gt_iff_gt]
    omega
  simp only [UnpackedFloat.ofUInt64, UnpackedFloat.ofNat, UnpackedFloat.ofInt,
    UnpackedFloat.normalize, hcompare, Int.toNat_natCast]

/-- A whole number that is a double once its binary digits are moved up is that double. -/
theorem toFloat_of_canonical {n : UInt64} {k m : Nat} {hm : 0 < m}
    (h : Canonical (.finite .positive m (-k) hm)) (hn : n.toNat * 2 ^ k = m) :
    n.toFloat = ofParts (.finite .positive m (-k) hm) := by
  have hpos : n.toNat ≠ 0 := by
    rintro hzero
    rw [hzero, Nat.zero_mul] at hn
    omega
  have hlog := log2_mul_two_pow hpos k
  obtain ⟨hm53, hlow, hhigh, hnormal⟩ := h
  have hlt : m.log2 < 53 := (Nat.log2_lt (by omega)).mpr hm53
  have htarget : max ((n.toNat.log2 : Int) + 0 - 52) (-1074) = -k := by
    obtain hbits | hleast := hnormal
    · have hge := (Nat.le_log2 (n := m) (k := 52) (by omega)).mpr hbits
      rw [hn] at hlog
      omega
    · rw [hn] at hlog
      omega
  have hcount : (0 - -(k : Int)).toNat = k := by omega
  have hunmoved : Canonical (.finite .positive m (-k + (0 : Nat)) hm) := by
    simpa using ⟨hm53, hlow, hhigh, hnormal⟩
  have hrounded := round_of_canonical hunmoved
  have hdecreased : decreaseExponent n.toNat 0 (-k) = (m, -(k : Int)) := by
    rw [decreaseExponent, hcount, Nat.shiftLeft_eq, hn, zero_sub]
  rw [toFloat_eq, ofUInt64_eq (by omega), UnpackedFloat.round, targetExponent_eq, htarget,
    hdecreased]
  simpa using congrArg ofParts hrounded

theorem roundedMantissa_le (em : ExtendedMantissa) : em.roundedMantissa ≤ em.mantissa + 1 := by
  obtain ⟨m, roundBit, stickyBit⟩ := em
  cases roundBit <;> cases stickyBit <;>
    simp only [ExtendedMantissa.roundedMantissa, ExtendedMantissa.accuracy,
      Accuracy.roundToNearestEven] <;> omega

theorem le_roundedMantissa (em : ExtendedMantissa) : em.mantissa ≤ em.roundedMantissa := by
  obtain ⟨m, roundBit, stickyBit⟩ := em
  cases roundBit <;> cases stickyBit <;>
    simp only [ExtendedMantissa.roundedMantissa, ExtendedMantissa.accuracy,
      Accuracy.roundToNearestEven] <;> omega

theorem ofMantissaAndAccuracy_mantissa (m : Nat) (a : Accuracy) :
    (ExtendedMantissa.ofMantissaAndAccuracy m a).mantissa = m := by
  cases a with
  | exact => rfl
  | inexact o => cases o <;> rfl

theorem shift_snd (m : Nat) (e : Int) (a : Accuracy) :
    (shiftToTargetExponent .binary64 m e a).2 = max e (max (m.log2 + e - 52) (-1074)) := by
  rw [shiftToTargetExponent, targetExponent_eq, shiftToExponent]
  dsimp only
  omega

theorem shift_fst_lt (m : Nat) (e : Int) (a : Accuracy) :
    (shiftToTargetExponent .binary64 m e a).1.mantissa < 2 ^ 53 := by
  rw [shiftToTargetExponent, targetExponent_eq, shiftToExponent]
  dsimp only
  rw [shiftRight_mantissa, ofMantissaAndAccuracy_mantissa,
    Nat.div_lt_iff_lt_mul (Nat.two_pow_pos _), ← Nat.pow_add]
  exact Nat.lt_log2_self.trans_le (Nat.pow_le_pow_right (by omega) (by omega))

theorem le_shift_fst {m : Nat} {e : Int} (hm : 2 ^ 52 ≤ m) (he : -1074 ≤ e) (a : Accuracy) :
    2 ^ 52 ≤ (shiftToTargetExponent .binary64 m e a).1.mantissa := by
  have hlog := (Nat.le_log2 (n := m) (k := 52) (by omega)).mpr hm
  have hself : 2 ^ m.log2 ≤ m := Nat.log2_self_le (by omega)
  have hcount : (max ((m.log2 : Int) + e - 52) (-1074) - e).toNat = m.log2 - 52 := by omega
  rw [shiftToTargetExponent, targetExponent_eq, shiftToExponent, hcount]
  dsimp only
  rw [shiftRight_mantissa, ofMantissaAndAccuracy_mantissa,
    Nat.le_div_iff_mul_le (Nat.two_pow_pos _), ← Nat.pow_add]
  rwa [Nat.add_sub_cancel' hlog]

/-- Rounding raises the exponent at most by one more than what brings the number to 53 digits. -/
theorem round_exponent_le (s : Sign) (m : Nat) (e : Int) (a : Accuracy) :
    roundWithAccuracy .binary64 s m e a = .zero s ∨
      ∃ m' e' hm', roundWithAccuracy .binary64 s m e a = .finite s m' e' hm' ∧
        e' ≤ max e (max (m.log2 + e - 52) (-1074)) + 1 := by
  have hfirst := shift_snd m e a
  have hrounded := roundedMantissa_le (shiftToTargetExponent .binary64 m e a).1
  have hdigits := shift_fst_lt m e a
  rw [roundWithAccuracy]
  dsimp only
  generalize shiftToTargetExponent .binary64 m e a = first at *
  have hsecond := shift_snd first.1.roundedMantissa first.2 .exact
  have hlog : first.1.roundedMantissa.log2 < 54 := by
    by_cases hzero : first.1.roundedMantissa = 0
    · rw [hzero]
      decide
    · exact (Nat.log2_lt hzero).mpr (by omega)
  split
  next => exact .inl rfl
  next hne => exact .inr ⟨_, _, Nat.pos_of_ne_zero hne, rfl, by omega⟩

/-- A number of at least 53 digits is rounded to a double, if it is not too large for one. -/
theorem exists_round_eq (s : Sign) {m : Nat} {e : Int} (hm : 2 ^ 52 ≤ m) (hlow : -1074 ≤ e)
    (hhigh : m.log2 + e ≤ 1022) (a : Accuracy) : ∃ m' e' hm',
      roundWithAccuracy .binary64 s m e a = .finite s m' e' hm' ∧
        Canonical (.finite s m' e' hm') := by
  have hlog := (Nat.le_log2 (n := m) (k := 52) (by omega)).mpr hm
  have hdigits := shift_fst_lt m e a
  have hfirst := shift_snd m e a
  have hbits := le_shift_fst hm hlow a
  rw [roundWithAccuracy]
  dsimp only
  generalize shiftToTargetExponent .binary64 m e a = first at *
  -- rounding up may add one digit, which the second shift takes away
  have hle := le_roundedMantissa first.1
  have hge := roundedMantissa_le first.1
  have hdigits' := shift_fst_lt first.1.roundedMantissa first.2 .exact
  have hsecond := shift_snd first.1.roundedMantissa first.2 .exact
  have hbits' := le_shift_fst (hbits.trans hle) (by omega) .exact (e := first.2)
  have hlog' : first.1.roundedMantissa.log2 < 54 := (Nat.log2_lt (by omega)).mpr (by omega)
  rw [dif_neg (by omega)]
  exact ⟨_, _, _, rfl, hdigits', by omega, by omega, .inl hbits'⟩

/-- A number that is not too large for a double is packed into a finite one. -/
theorem isFinite_ofParts {s : Sign} {m : Nat} {e : Int} {hm : 0 < m} (he : e ≤ 971) :
    (ofParts (.finite s m e hm)).isFinite = true := by
  have hbiased : (e + Format.binary64.exponentBias + (52 : Nat)).toNat = (e + 1075).toNat := by
    rw [bias_eq]
    omega
  have hspecial : BitVec.ofNat 11 (e + 1075).toNat ≠ -1#11 := by
    have hones : (-1#11).toNat = 2047 := rfl
    rw [ne_eq, BitVec.toNat_eq, toNat_ofNat_of_lt (show (e + 1075).toNat < 2 ^ 11 by omega), hones]
    omega
  have hparts : parts (ofParts (.finite s m e hm)) =
      UnpackedFloat.unpack .binary64 (UnpackedFloat.pack .binary64 (.finite s m e hm)) := rfl
  rw [isFinite_eq, hparts, UnpackedFloat.pack]
  simp only [hbiased]
  rw [if_neg (by omega)]
  split
  next =>
    rw [UnpackedFloat.unpack]
    simp only [unpackExponent_packComponents]
    rw [if_neg hspecial]
    split
    · split <;> rfl
    · rfl
  next =>
    rw [UnpackedFloat.unpack]
    simp only [unpackExponent_packComponents]
    rw [if_neg (by decide), if_pos trivial]
    split <;> rfl

/-- Every word of 64 bits is a finite double. -/
@[simp] theorem isFinite_toFloat (n : UInt64) : n.toFloat.isFinite = true := by
  obtain hzero | hpos := Nat.eq_zero_or_pos n.toNat
  · obtain rfl : n = 0 := UInt64.toNat_inj.mp hzero
    rfl
  have hlog : n.toNat.log2 < 64 := (Nat.log2_lt (by omega)).mpr n.toNat_lt
  rw [toFloat_eq, ofUInt64_eq hpos, UnpackedFloat.round, targetExponent_eq, decreaseExponent]
  dsimp only
  rw [Nat.shiftLeft_eq]
  generalize hk : (0 - max ((n.toNat.log2 : Int) + 0 - 52) (-1074)).toNat = k
  have hmoved := log2_mul_two_pow hpos.ne' k
  obtain hzero | ⟨m, e, hm, heq, he⟩ :=
    round_exponent_le .positive (n.toNat * 2 ^ k) (0 - k) .exact
  · rw [hzero]
    rfl
  · rw [heq]
    exact isFinite_ofParts (by omega)

/-- The double of a word other than zero is no zero. -/
theorem exists_parts_toFloat {n : UInt64} (hn : 0 < n.toNat) :
    ∃ m e hm, parts n.toFloat = .finite .positive m e hm := by
  have hlog : n.toNat.log2 < 64 := (Nat.log2_lt (by omega)).mpr n.toNat_lt
  have hself : 2 ^ n.toNat.log2 ≤ n.toNat := Nat.log2_self_le (by omega)
  have hcount : (0 - max ((n.toNat.log2 : Int) + 0 - 52) (-1074)).toNat = 52 - n.toNat.log2 := by
    omega
  have hmoved := log2_mul_two_pow hn.ne' (52 - n.toNat.log2)
  have hbits : 2 ^ 52 ≤ n.toNat * 2 ^ (52 - n.toNat.log2) := calc
    2 ^ 52 ≤ 2 ^ (n.toNat.log2 + (52 - n.toNat.log2)) :=
      Nat.pow_le_pow_right (by decide) (by omega)
    _ = 2 ^ n.toNat.log2 * 2 ^ (52 - n.toNat.log2) := Nat.pow_add ..
    _ ≤ n.toNat * 2 ^ (52 - n.toNat.log2) := Nat.mul_le_mul_right _ hself
  obtain ⟨m, e, hm, hround, hcanonical⟩ := exists_round_eq .positive hbits
    (e := 0 - ((52 - n.toNat.log2 : Nat) : Int)) (by omega) (by omega) .exact
  refine ⟨m, e, hm, ?_⟩
  rw [toFloat_eq, ofUInt64_eq hn, UnpackedFloat.round, targetExponent_eq, decreaseExponent, hcount]
  dsimp only
  rw [Nat.shiftLeft_eq, hround, parts_ofParts hcanonical]

end Tabular.Number
