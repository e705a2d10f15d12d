import Tabular.Number.Double
import Tabular.Proofs.Number.Parts

/-!
# The number behind the bits

A double that is a number is determined by the number behind its bits, and its sign bit is the sign of
that number. What is not a number has all bits of the exponent set, and some bit below them.
-/
namespace Tabular.Double

open Float.Model Float.Model.UnpackedFloat Number

/-- The bits of a double, as those that its parts are packed into. -/
def packed (d : Double) : BitVec Format.binary64.numBits := d.bits.toBitVec

theorem toNat_unpackExponent (d : Double) :
    (unpackExponent (packed d)).toNat = d.bits.toNat / Nat.pow 2 52 % Nat.pow 2 11 := by
  rw [unpackExponent_def, BitVec.extractLsb'_toNat, Nat.shiftRight_eq_div_pow]
  rfl

theorem toNat_unpackMantissa (d : Double) :
    (unpackMantissa (packed d)).toNat = d.bits.toNat % Nat.pow 2 52 := by
  rw [unpackMantissa_def, BitVec.extractLsb'_toNat, Nat.shiftRight_zero]
  rfl

def sign (d : Double) : Sign := if d.isNegative then .negative else .positive

theorem sign_eq (d : Double) : Sign.ofBitVec (unpackSign (packed d)) = d.sign := by
  have hsign : unpackSign (packed d) = BitVec.ofNat 1 (d.bits.toNat / Nat.pow 2 63) := by
    rw [unpackSign_def, BitVec.extractLsb', Nat.shiftRight_eq_div_pow]
    rfl
  have hlt : d.bits.toNat < Nat.pow 2 64 := d.bits.toNat_lt
  rw [hsign, Sign.ofBitVec, sign, isNegative]
  by_cases hneg : Nat.pow 2 63 ≤ d.bits.toNat
  · have hone : d.bits.toNat / Nat.pow 2 63 = 1 := by
      norm_num at hneg hlt ⊢
      omega
    simp [hone, hneg]
  · have hzero : d.bits.toNat / Nat.pow 2 63 = 0 := Nat.div_eq_of_lt (Nat.not_le.mp hneg)
    simp [hzero, hneg]

@[simp] theorem toFloat_ofFloat (x : Float) : (x : Double).toFloat = x := Float.ofBits_toBits x

@[simp] theorem ofFloat_inj {x y : Float} : (x : Double) = y ↔ x = y :=
  ⟨fun h => by rw [← toFloat_ofFloat x, h, toFloat_ofFloat], congrArg ofFloat⟩

@[simp] theorem isNaN_ofFloat (x : Float) : (x : Double).isNaN = x.isNaN :=
  congrArg Float.isNaN (toFloat_ofFloat x)

@[simp] theorem isFinite_ofFloat (x : Float) : (x : Double).isFinite = x.isFinite :=
  congrArg Float.isFinite (toFloat_ofFloat x)

theorem toFloat_eq (d : Double) : d.toFloat = ofParts (UnpackedFloat.unpack .binary64 (packed d)) := rfl

theorem parts_toFloat (d : Double) : parts d.toFloat = UnpackedFloat.unpack .binary64 (packed d) :=
  parts_ofParts (canonical_unpack _)

theorem isNaN_iff (d : Double) :
    d.isNaN = true ↔ unpackExponent (packed d) = -1#11 ∧ unpackMantissa (packed d) ≠ 0#52 := by
  have hparts : d.isNaN = (parts d.toFloat).isNaN := rfl
  rw [hparts, parts_toFloat, UnpackedFloat.unpack]
  dsimp only
  split
  next hexponent => split <;> simp_all [UnpackedFloat.isNaN]
  next hexponent =>
    refine iff_of_false ?_ fun h => hexponent h.1
    split
    next => split <;> simp [UnpackedFloat.isNaN]
    next => simp [UnpackedFloat.isNaN]

/-- What is not a number stands behind the infinity of its sign. -/
theorem isNaN_iff_lt (d : Double) : d.isNaN = true ↔ 2047 * 2 ^ 52 < d.bits.toNat % 2 ^ 63 := by
  have hexponent := toNat_unpackExponent d
  have hmantissa := toNat_unpackMantissa d
  rw [isNaN_iff, ne_eq, BitVec.toNat_eq, BitVec.toNat_eq, hexponent, hmantissa]
  norm_num
  omega

/-- A number is determined by what stands behind its bits. -/
theorem ofFloat_toFloat {d : Double} (h : d.isNaN = false) : (d.toFloat : Double) = d := by
  have hvalid : Format.binary64.Valid (packed d) := by
    refine ⟨fun hexponent hmantissa => ?_⟩
    rw [(isNaN_iff d).mpr ⟨hexponent, hmantissa⟩] at h
    cases h
  obtain ⟨bits⟩ := d
  refine congrArg Double.mk (UInt64.toBitVec_inj.mp ?_)
  exact pack_unpack_of_valid hvalid

def withSign (s : Sign) : UnpackedFloat → UnpackedFloat
  | .finite _ m e hm => .finite s m e hm
  | .infinity _ => .infinity s
  | .zero _ => .zero s
  | .notANumber => .notANumber

theorem isNaN_of_isFinite {d : Double} (h : d.isFinite = true) : d.isNaN = false :=
  Number.isNaN_of_isFinite h

@[simp] theorem isZero_ofFloat (x : Float) : (x : Double).isZero = (x == 0.0) :=
  congrArg (· == (0.0 : Float)) (toFloat_ofFloat x)

/-- Doubles that differ in the sign bit only have the same parts but for the sign. -/
theorem parts_of_mod_eq {d e : Double} (h : d.bits.toNat % 2 ^ 63 = e.bits.toNat % 2 ^ 63) :
    parts d.toFloat = withSign d.sign (parts e.toFloat) := by
  have hexponent : unpackExponent (packed d) = unpackExponent (packed e) := by
    refine BitVec.eq_of_toNat_eq ?_
    rw [toNat_unpackExponent, toNat_unpackExponent]
    norm_num only [Nat.pow_eq]
    omega
  have hmantissa : unpackMantissa (packed d) = unpackMantissa (packed e) := by
    refine BitVec.eq_of_toNat_eq ?_
    rw [toNat_unpackMantissa, toNat_unpackMantissa]
    norm_num only [Nat.pow_eq]
    omega
  rw [parts_toFloat, parts_toFloat, UnpackedFloat.unpack, UnpackedFloat.unpack]
  simp only [hexponent, hmantissa, sign_eq]
  split
  next => split <;> rfl
  next =>
    split
    next => split <;> rfl
    next => rfl

theorem toNat_neg (d : Double) : (-d).bits.toNat = (d.bits.toNat + 2 ^ 63) % 2 ^ 64 :=
  UInt64.toNat_add d.bits _

theorem isNegative_neg (d : Double) : (-d).isNegative = !d.isNegative := by
  have hlt : d.bits.toNat < 2 ^ 64 := d.bits.toNat_lt
  rw [isNegative, isNegative, toNat_neg, ← decide_not, decide_eq_decide]
  norm_num only [Nat.pow_eq]
  omega

theorem toNat_abs (d : Double) : d.abs.bits.toNat = d.bits.toNat % 2 ^ 63 :=
  UInt64.toNat_ofNat_of_lt' ((Nat.mod_lt _ (by decide)).trans (by decide))

theorem isNegative_abs (d : Double) : d.abs.isNegative = false := by
  rw [isNegative, toNat_abs]
  exact decide_eq_false (Nat.not_le.mpr (Nat.mod_lt _ (by decide)))

@[simp] theorem toFloat_neg (d : Double) : (-d).toFloat = -d.toFloat := by
  have hmod : (-d).bits.toNat % 2 ^ 63 = d.bits.toNat % 2 ^ 63 := by
    rw [toNat_neg]
    omega
  rw [neg_eq, ← ofParts_parts (-d).toFloat, parts_of_mod_eq hmod]
  conv_rhs => rw [parts_of_mod_eq (rfl : d.bits.toNat % 2 ^ 63 = d.bits.toNat % 2 ^ 63)]
  rw [sign, sign, isNegative_neg]
  cases d.isNegative <;> cases parts d.toFloat <;> rfl

@[simp] theorem toFloat_abs (d : Double) : d.abs.toFloat = d.toFloat.abs := by
  have hmod : d.abs.bits.toNat % 2 ^ 63 = d.bits.toNat % 2 ^ 63 := by
    rw [toNat_abs, Nat.mod_mod]
  rw [abs_eq, ← ofParts_parts d.abs.toFloat, parts_of_mod_eq hmod, sign, isNegative_abs]
  cases parts d.toFloat <;> rfl

end Tabular.Double
