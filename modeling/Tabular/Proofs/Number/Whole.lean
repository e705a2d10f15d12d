import Tabular.Proofs.Number.Bits
import Tabular.Proofs.Number.Decimal

/-!
# Whole doubles

The sign, the significand and the exponent that are cut out of the bits of a double are its parts.
A double without a fraction that is not too large is therefore the double of its whole part, up to
the sign.
-/
namespace Tabular.Number

open Float.Model Float.Model.UnpackedFloat Double

/-- What the bits of a finite double say about its parts. -/
theorem magnitude_cases {x : Float} (h : x.isFinite = true) :
    (∃ s, parts x = .zero s ∧ (magnitude x).mantissa = 0 ∧ isNegative x = (s == .negative)) ∨
    ∃ s m e hm, parts x = .finite s m e hm ∧ magnitude x = ⟨m, e⟩ ∧
      isNegative x = (s == .negative) := by
  have hparts : parts x = UnpackedFloat.unpack .binary64 (packed x) := rfl
  have hexponent : (unpackExponent (packed x)).toNat = x.toBits.toNat / Nat.pow 2 52 % Nat.pow 2 11 :=
    toNat_unpackExponent x
  have hmantissa : (unpackMantissa (packed x)).toNat = x.toBits.toNat % Nat.pow 2 52 :=
    toNat_unpackMantissa x
  have hsign : isNegative x = (Sign.ofBitVec (unpackSign (packed x)) == .negative) := by
    have hnegative : isNegative x = (x : Double).isNegative := rfl
    rw [sign_eq, sign, hnegative]
    cases (x : Double).isNegative <;> rfl
  rw [isFinite_eq, hparts, UnpackedFloat.unpack] at h
  rw [hparts, UnpackedFloat.unpack, magnitude]
  dsimp only at h ⊢
  rw [← hexponent, ← hmantissa]
  split at h
  next => split at h <;> cases h
  next hspecial =>
    rw [if_neg hspecial]
    by_cases hzero : unpackExponent (packed x) = 0#11
    · rw [if_pos hzero, if_pos (by rw [hzero]; rfl)]
      split
      next hm => exact .inl ⟨_, rfl, by rw [hm]; rfl, hsign⟩
      next hm =>
        have hpos : 0 < (unpackMantissa (packed x)).toNat :=
          Nat.pos_of_ne_zero (by simpa [BitVec.toNat_eq] using hm)
        exact .inr ⟨_, _, _, hpos, rfl, by rw [hzero]; rfl, hsign⟩
    · have hne : (unpackExponent (packed x)).toNat ≠ 0 := by simpa [BitVec.toNat_eq] using hzero
      have hm := toNat_one_append (unpackMantissa (packed x))
      have hpos : 0 < (1#1 ++ unpackMantissa (packed x)).toNat := by omega
      rw [if_neg hzero, if_neg hne]
      exact .inr ⟨_, _, _, hpos, rfl, by rw [hm, bias_eq]; rfl, hsign⟩

/-- A finite double is its magnitude under its sign. -/
theorem signed_abs {x : Float} (h : x.isFinite = true) :
    (if isNegative x then -x.abs else x.abs) = x := by
  rw [neg_eq, parts_abs, abs_eq]
  conv_rhs => rw [← ofParts_parts x]
  obtain ⟨s, hparts, -, hsign⟩ | ⟨s, m, e, hm, hparts, -, hsign⟩ := magnitude_cases h
  all_goals
    rw [hparts, hsign]
    cases s <;> rfl

/-- The only finite double without a magnitude and with a sign is the negative zero. -/
theorem isNegative_of_abs_eq_zero {x : Float} (h : x.isFinite = true) (habs : x.abs = 0.0)
    (hx : x ≠ -0.0) : isNegative x = false := by
  rw [Bool.eq_false_iff]
  intro hneg
  have hsigned := signed_abs h
  rw [if_pos hneg, habs] at hsigned
  exact hx hsigned.symm

/-- A whole number of at most 52 binary digits is kept when it is cut out of a double. -/
theorem toFloat_wholePart {x : Float} (h : isIntegral x = true) (hlt : wholePart x < 2 ^ 52) :
    (wholePart x).toUInt64.toFloat = x.abs := by
  obtain ⟨hfinite, hdvd⟩ := Bool.and_eq_true_iff.mp h
  rw [wholePart] at *
  obtain ⟨s, hparts, hzero, -⟩ | ⟨s, m, e, hm, hparts, hmagnitude, -⟩ := magnitude_cases hfinite
  · rw [Binary.fraction, hzero, abs_eq, hparts, Nat.zero_mul]
    dsimp only
    rw [Nat.zero_div]
    rfl
  · have hcanonical := canonical_parts x
    rw [hparts] at hcanonical
    obtain ⟨hm53, hlow, hhigh, hnormal⟩ := hcanonical
    rw [hmagnitude, Binary.fraction] at hlt hdvd ⊢
    dsimp only at hlt hdvd ⊢
    have hexponent : e.toNat = 0 ∧ e = -((-e).toNat : Int) := by
      by_cases he : 0 ≤ e
      · -- a double without a fraction part has a significand of 53 digits
        have hden : (-e).toNat = 0 := by omega
        have hle : m ≤ m * 2 ^ e.toNat := Nat.le_mul_of_pos_right m (Nat.two_pow_pos _)
        rw [hden] at hlt
        simp only [Nat.pow_eq, Nat.pow_zero, Nat.div_one] at hlt
        omega
      · omega
    generalize (-e).toNat = k at hexponent hlt hdvd ⊢
    obtain ⟨hzero, rfl⟩ := hexponent
    simp only [hzero, Nat.pow_eq, Nat.pow_zero, Nat.mul_one, beq_iff_eq] at hlt hdvd ⊢
    have hword : (m / 2 ^ k).toUInt64.toNat * 2 ^ k = m := by
      rw [UInt64.toNat_ofNat_of_lt' (hlt.trans (by decide)), Nat.div_mul_cancel (Nat.dvd_of_mod_eq_zero hdvd)]
    have hpositive : Canonical (.finite .positive m (-k) hm) := ⟨hm53, hlow, hhigh, hnormal⟩
    rw [toFloat_of_canonical hpositive hword, abs_eq, hparts]
    rfl

/-- A natural number of at most 64 binary digits is the double of its word. -/
theorem ofNat_eq_toFloat {n : Nat} (h : n < 2 ^ 64) : Float.ofNat n = n.toUInt64.toFloat := by
  by_cases hexact : n < 2 ^ 53
  · have hofNat : Float.ofNat n = n.toUInt64.toFloat * 1.0 := dif_pos ⟨hexact, by decide⟩
    rw [hofNat, mul_one]
  · -- both are the number rounded, though one has 53 zeros more behind its digits before
    have hword : n.toUInt64.toNat = n := UInt64.toNat_ofNat_of_lt' h
    have hlog : 53 ≤ n.log2 := (Nat.le_log2 (by omega)).mpr (by omega)
    have hofNat : Float.ofNat n = ofParts (UnpackedFloat.ofScientific .binary64 n 0) :=
      dif_neg fun h => hexact h.1
    have hsmall : ¬(0 : Int) < -(2 ^ Format.binary64.exponentBits + (n.log2 : Int)) := by norm_num
    have hscientific : UnpackedFloat.ofScientific .binary64 n 0 =
        roundWithAccuracy .binary64 .positive (n <<< 53 * 1) (0 - (53 : Nat)) .exact := by
      rw [UnpackedFloat.ofScientific, dif_neg (by omega), if_neg (by decide), if_neg hsmall,
        if_pos (by decide)]
      rfl
    have hcount : (0 - max ((n.log2 : Int) + 0 - 52) (-1074)).toNat = 0 := by omega
    have hround : UnpackedFloat.ofUInt64 .binary64 n.toUInt64 =
        roundWithAccuracy .binary64 .positive n 0 .exact := by
      rw [ofUInt64_eq (by omega), hword, UnpackedFloat.round, targetExponent_eq, decreaseExponent,
        hcount]
      rfl
    rw [hofNat, toFloat_eq, hround, hscientific, Nat.mul_one, Nat.shiftLeft_eq,
      round_mul_two_pow .positive (by omega) (by omega)]

end Tabular.Number
