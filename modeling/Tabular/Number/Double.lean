import Tabular.Number.Binary

/-!
# Doubles as bits

A cell keeps a number as its 64 bits. What is not a number has many forms, which differ in sign and
payload; sorting and grouping tell them apart, and a change of sign keeps them. The other operations
see the number behind the bits, which has a single such form.
-/
namespace Tabular

structure Double where
  bits : UInt64
  deriving DecidableEq, Repr

namespace Double

def ofFloat (x : Float) : Double := ⟨x.toBits⟩

instance : Coe Float Double := ⟨ofFloat⟩

instance : OfScientific Double := ⟨fun m s e => (OfScientific.ofScientific m s e : Float)⟩

instance {n : Nat} : OfNat Double n := ⟨(OfNat.ofNat n : Float)⟩

instance : Inhabited Double := ⟨0⟩

def toFloat (d : Double) : Float := Float.ofBits d.bits

def isNaN (d : Double) : Bool := d.toFloat.isNaN

def isFinite (d : Double) : Bool := d.toFloat.isFinite

def isZero (d : Double) : Bool := d.toFloat == 0.0

def isNegative (d : Double) : Bool := Nat.pow 2 63 ≤ d.bits.toNat

/-- The double with the other sign bit. -/
instance : Neg Double := ⟨fun d => ⟨d.bits + UInt64.ofNat (Nat.pow 2 63)⟩⟩

def abs (d : Double) : Double := ⟨UInt64.ofNat (d.bits.toNat % Nat.pow 2 63)⟩

/-- The position in the order of all bits read as sign and magnitude, in which the negative zero comes
before the positive one. -/
def orderKey (d : Double) : Int :=
  let bits : Nat := d.bits.toNat
  if bits < Nat.pow 2 63 then bits else -(bits - Nat.pow 2 63 : Nat) - 1

end Double

end Tabular
