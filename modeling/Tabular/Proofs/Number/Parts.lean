import Mathlib
import Tabular.Number.Binary

/-!
# Doubles in parts

A double is packed into bits from its parts: a sign, a natural number and a power of two, or one of
the special forms. An operation takes its operands apart, computes with the parts and packs the
result. What is packed is found again when it is taken apart, if it has the form that doubles have.
What Batteries shows of the bits of floats is imported with the whole of Mathlib: no part of it alone
holds these lemmas.
-/
namespace Tabular.Number

open Float.Model Float.Model.UnpackedFloat

def parts (x : Float) : UnpackedFloat := x.toModel.unpack

def ofParts (u : UnpackedFloat) : Float := ⟨Float.Model.pack u⟩

/-- The form that the parts of a double have. A significand of less than 53 digits has the least
exponent. -/
def Canonical : UnpackedFloat → Prop
  | .finite _ m e _ => m < 2 ^ 53 ∧ -1074 ≤ e ∧ e ≤ 971 ∧ (2 ^ 52 ≤ m ∨ e = -1074)
  | _ => True

theorem bias_eq : ((Format.binary64.exponentBias : Nat) : Int) = 1023 := rfl

theorem toNat_one_append (v : BitVec 52) : (1#1 ++ v).toNat = 2 ^ 52 + v.toNat := by
  rw [BitVec.toNat_append, ← Nat.shiftLeft_add_eq_or_of_lt v.isLt]
  rfl

theorem canonical_unpack (b : BitVec Format.binary64.numBits) :
    Canonical (UnpackedFloat.unpack .binary64 b) := by
  have hexponent : (unpackExponent b).toNat < 2 ^ 11 := (unpackExponent b).isLt
  have hmantissa : (unpackMantissa b).toNat < 2 ^ 52 := (unpackMantissa b).isLt
  rw [UnpackedFloat.unpack]
  dsimp only
  split
  next => split <;> trivial
  next hspecial =>
    have hspecial : (unpackExponent b).toNat ≠ 2047 := by
      simpa [BitVec.toNat_eq] using hspecial
    split
    next hzero =>
      split
      next => trivial
      next =>
        have hzero : (unpackExponent b).toNat = 0 := by simpa [BitVec.toNat_eq] using hzero
        refine ⟨by omega, ?_, ?_, .inr ?_⟩
        all_goals
          rw [hzero, bias_eq]
          omega
    next hzero =>
      have hzero : (unpackExponent b).toNat ≠ 0 := by simpa [BitVec.toNat_eq] using hzero
      have hone := toNat_one_append (unpackMantissa b)
      refine ⟨by omega, ?_, ?_, .inl (by omega)⟩
      all_goals
        rw [bias_eq]
        omega

theorem canonical_parts (x : Float) : Canonical (parts x) := canonical_unpack _

theorem toNat_ofNat_of_lt {w n : Nat} (h : n < 2 ^ w) : (BitVec.ofNat w n).toNat = n :=
  (BitVec.toNat_ofNat n w).trans (Nat.mod_eq_of_lt h)

/-- Parts of the form that doubles have are found again behind their bits. -/
theorem unpack_pack {u : UnpackedFloat} (h : Canonical u) :
    UnpackedFloat.unpack .binary64 (UnpackedFloat.pack .binary64 u) = u := by
  cases u with
  | notANumber => rfl
  | infinity s => cases s <;> rfl
  | zero s => cases s <;> rfl
  | finite s m e hm =>
    obtain ⟨hm53, hlow, hhigh, hnormal⟩ := h
    have hbiased : (e + Format.binary64.exponentBias + (52 : Nat)).toNat = (e + 1075).toNat := by
      rw [bias_eq]
      omega
    have hwidth : Format.binary64.mantissaBits = 53 := rfl
    rw [UnpackedFloat.pack]
    simp only [hbiased, hwidth]
    rw [if_neg (by omega)]
    split
    next hlog =>
      have hbits : 2 ^ 52 ≤ m := (Nat.le_log2 (by omega)).mp (by omega)
      have hexponent : (BitVec.ofNat 11 (e + 1075).toNat).toNat = (e + 1075).toNat :=
        toNat_ofNat_of_lt (by omega)
      have hmantissa : (1#1 ++ BitVec.ofNat 52 m).toNat = m := by
        rw [toNat_one_append, BitVec.toNat_ofNat]
        omega
      rw [UnpackedFloat.unpack]
      simp only [unpackExponent_packComponents, unpackMantissa_packComponents,
        unpackSign_packComponents, Sign.ofBitVec_toBitVec]
      rw [if_neg (by simp [BitVec.toNat_eq]; omega), if_neg (by simp [BitVec.toNat_eq]; omega)]
      simp only [hmantissa, hexponent, bias_eq, UnpackedFloat.finite.injEq, true_and]
      omega
    next hlog =>
      have hbits : m < 2 ^ 52 := by
        have hlt := (Nat.log2_lt (by omega)).mpr hm53
        exact (Nat.log2_lt (by omega)).mp (by omega)
      have hmantissa : (BitVec.ofNat 52 m).toNat = m := toNat_ofNat_of_lt hbits
      rw [UnpackedFloat.unpack]
      simp only [unpackExponent_packComponents, unpackMantissa_packComponents,
        unpackSign_packComponents, Sign.ofBitVec_toBitVec]
      rw [if_neg (by decide), if_pos trivial, dif_neg (by simp [BitVec.toNat_eq]; omega)]
      simp only [hmantissa, bias_eq, UnpackedFloat.finite.injEq, true_and, BitVec.toNat_ofNat]
      omega

@[simp] theorem ofParts_parts (x : Float) : ofParts (parts x) = x := by
  rw [← Float.toBits_inj, ← UInt64.toBitVec_inj]
  exact pack_unpack_of_valid x.toModel.valid

theorem parts_ofParts {u : UnpackedFloat} (h : Canonical u) : parts (ofParts u) = u :=
  unpack_pack h

theorem neg_eq (x : Float) : -x = ofParts (parts x).neg := rfl

theorem abs_eq (x : Float) : x.abs = ofParts (parts x).abs := rfl

theorem isFinite_eq (x : Float) : x.isFinite = (parts x).isFinite := rfl

theorem Canonical.neg {u : UnpackedFloat} (h : Canonical u) : Canonical u.neg := by
  cases u <;> exact h

theorem Canonical.abs {u : UnpackedFloat} (h : Canonical u) : Canonical u.abs := by
  cases u <;> exact h

@[simp] theorem parts_neg (x : Float) : parts (-x) = (parts x).neg :=
  parts_ofParts (canonical_parts x).neg

@[simp] theorem parts_abs (x : Float) : parts x.abs = (parts x).abs :=
  parts_ofParts (canonical_parts x).abs

@[simp] theorem isFinite_neg (x : Float) : (-x).isFinite = x.isFinite := by
  rw [isFinite_eq, isFinite_eq, parts_neg]
  cases parts x <;> rfl

@[simp] theorem isFinite_abs (x : Float) : x.abs.isFinite = x.isFinite := by
  rw [isFinite_eq, isFinite_eq, parts_abs]
  cases parts x <;> rfl

@[simp] theorem abs_neg (x : Float) : (-x).abs = x.abs := by
  rw [abs_eq, abs_eq, parts_neg]
  cases parts x <;> rfl

@[simp] theorem abs_abs (x : Float) : x.abs.abs = x.abs := by
  rw [abs_eq x.abs, parts_abs, abs_eq]
  cases parts x <;> rfl

theorem isNaN_eq (x : Float) : x.isNaN = (parts x).isNaN := rfl

theorem isNaN_eq_false {x : Float} : x.isNaN = false ↔ parts x ≠ .notANumber := by
  rw [isNaN_eq]
  cases parts x <;> simp [UnpackedFloat.isNaN]

@[simp] theorem isNaN_neg (x : Float) : (-x).isNaN = x.isNaN := by
  rw [isNaN_eq, isNaN_eq, parts_neg]
  cases parts x <;> rfl

@[simp] theorem isNaN_abs (x : Float) : x.abs.isNaN = x.isNaN := by
  rw [isNaN_eq, isNaN_eq, parts_abs]
  cases parts x <;> rfl

theorem isNaN_of_isFinite {x : Float} (h : x.isFinite = true) : x.isNaN = false := by
  rw [isNaN_eq_false]
  intro hparts
  rw [isFinite_eq, hparts] at h
  cases h

end Tabular.Number
