import Tabular.Number.Decimal
import Tabular.Proofs.Number.Rounding

/-!
# Decimals are numbers

A decimal reads as a finite double or, if it is too large for one, as infinity. Products and
quotients with a divisor that is finite and not zero are numbers where the other operand is one, and
where that is not finite no finite divisor makes it so.
-/
namespace Tabular.Number

open Float.Model Float.Model.UnpackedFloat

theorem unpack_packComponents_ne_notANumber {s : Sign} {exponent : BitVec 11}
    {mantissa : BitVec 52} (h : exponent ≠ -1#11) :
    UnpackedFloat.unpack .binary64 (packComponents .binary64 s exponent mantissa) ≠
      .notANumber := by
  rw [UnpackedFloat.unpack]
  simp only [unpackExponent_packComponents]
  rw [if_neg h]
  split
  · split <;> exact nofun
  · exact nofun

/-- Packing makes no number into what is not one. -/
theorem parts_ofParts_ne_notANumber {u : UnpackedFloat} (h : u ≠ .notANumber) :
    parts (ofParts u) ≠ .notANumber := by
  have hparts : parts (ofParts u) =
      UnpackedFloat.unpack .binary64 (UnpackedFloat.pack .binary64 u) := rfl
  rw [hparts]
  cases u with
  | notANumber => exact absurd rfl h
  | infinity s => cases s <;> exact nofun
  | zero s => cases s <;> exact nofun
  | finite s m e hm =>
    rw [UnpackedFloat.pack]
    dsimp only
    split
    next => cases s <;> exact nofun
    next hsmall =>
      split
      next =>
        refine unpack_packComponents_ne_notANumber fun heq => hsmall ?_
        have hbits := congrArg BitVec.toNat heq
        rw [toNat_ofNat_of_lt (by omega)] at hbits
        exact (congrArg (· + 1) hbits).ge
      next => exact unpack_packComponents_ne_notANumber (by decide)

theorem round_ne_notANumber (s : Sign) (m : Nat) (e : Int) (a : Accuracy) :
    roundWithAccuracy .binary64 s m e a ≠ .notANumber := by
  obtain hzero | ⟨m', e', hm', heq, -⟩ := round_exponent_le s m e a
  · rw [hzero]
    exact nofun
  · rw [heq]
    exact nofun

/-- Whether parts are those of a finite number other than zero. -/
def isNonzero : UnpackedFloat → Bool
  | .finite .. => true
  | _ => false

theorem exists_finite {u : UnpackedFloat} (h : isNonzero u = true) :
    ∃ s m e hm, u = .finite s m e hm := by
  cases u with
  | finite s m e hm => exact ⟨s, m, e, hm, rfl⟩
  | _ => cases h

theorem mul_ne_notANumber {u v : UnpackedFloat} (hu : u ≠ .notANumber)
    (hv : isNonzero v = true) : UnpackedFloat.mul .binary64 u v ≠ .notANumber := by
  obtain ⟨s, m, e, hm, rfl⟩ := exists_finite hv
  cases u with
  | notANumber => exact absurd rfl hu
  | finite => exact round_ne_notANumber _ _ _ _
  | _ => exact nofun

theorem div_ne_notANumber {u v : UnpackedFloat} (hu : u ≠ .notANumber)
    (hv : isNonzero v = true) : UnpackedFloat.div .binary64 u v ≠ .notANumber := by
  obtain ⟨s, m, e, hm, rfl⟩ := exists_finite hv
  cases u with
  | notANumber => exact absurd rfl hu
  | finite => exact round_ne_notANumber _ _ _ _
  | _ => exact nofun

theorem div_cases {u v : UnpackedFloat} (hu : u.isFinite = false) (hv : v.isFinite = true) :
    UnpackedFloat.div .binary64 u v = .notANumber ∨
      ∃ s, UnpackedFloat.div .binary64 u v = .infinity s := by
  cases u with
  | notANumber => exact .inl rfl
  | zero => cases hu
  | finite => cases hu
  | infinity s =>
    cases v with
    | notANumber => cases hv
    | infinity => cases hv
    | zero => exact .inr ⟨_, rfl⟩
    | finite => exact .inr ⟨_, rfl⟩

theorem isFinite_div {x y : Float} (hx : x.isFinite = false) (hy : y.isFinite = true) :
    (x / y).isFinite = false := by
  have hdiv : x / y = ofParts (UnpackedFloat.div .binary64 (parts x) (parts y)) := rfl
  rw [isFinite_eq] at hx hy
  obtain hnan | ⟨s, hinfinity⟩ := div_cases hx hy
  · rw [hdiv, hnan]
    rfl
  · rw [hdiv, hinfinity]
    cases s <;> rfl

theorem isNonzero_powersOfTen :
    ∀ p ∈ Float.exactlyRepresentablePowersOfTen, isNonzero (parts p) = true := by
  decide +kernel

theorem isNaN_ofParts {u : UnpackedFloat} (h : u ≠ .notANumber) : (ofParts u).isNaN = false :=
  isNaN_eq_false.mpr (parts_ofParts_ne_notANumber h)

theorem ofScientific_ne_notANumber (m : Nat) (e : Int) :
    UnpackedFloat.ofScientific .binary64 m e ≠ .notANumber := by
  unfold UnpackedFloat.ofScientific
  split
  · exact nofun
  split
  · exact nofun
  split
  · exact nofun
  split
  · exact mul_ne_notANumber (by exact nofun) (by rfl)
  · exact div_ne_notANumber (by exact nofun) (by rfl)

theorem isNaN_ofScientific (m : Nat) (negative : Bool) (e : Nat) :
    (Float.ofScientific m negative e).isNaN = false := by
  unfold Float.ofScientific
  split
  next h =>
    have he : e < Float.exactlyRepresentablePowersOfTen.size := Nat.lt_succ_of_le h.2
    have hten := isNonzero_powersOfTen _ (Array.getElem_mem he)
    have hwhole : parts m.toUInt64.toFloat ≠ .notANumber :=
      isNaN_eq_false.mp (isNaN_of_isFinite (isFinite_toFloat _))
    cases negative
    · exact isNaN_ofParts (mul_ne_notANumber hwhole hten)
    · exact isNaN_ofParts (div_ne_notANumber hwhole hten)
  next => exact isNaN_ofParts (ofScientific_ne_notANumber m _)

theorem isNaN_of_parseFinite? {cs : List Char} {x : Float} (h : parseFinite? cs = some x) :
    x.isNaN = false :=
  isNaN_of_isFinite (Option.filter_eq_some_iff.mp h).2

/-- A decimal is never read as what is not a number. -/
theorem isNaN_toFloat (d : Decimal) : d.toFloat.isNaN = false := by
  unfold Decimal.toFloat
  split
  · rfl
  dsimp only
  split
  · rfl
  split
  · rfl
  · exact isNaN_ofScientific _ _ _

end Tabular.Number
