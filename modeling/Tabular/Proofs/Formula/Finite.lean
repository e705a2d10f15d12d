import Tabular.Proofs.Formula.Closed

/-!
# Which results are finite

Arithmetic, sums, averages and rounding check that their results are finite, and counts are. Signs,
absolute values and the least and greatest of some numbers only pass on what they are given, which
comes from cells or from literals. Where all cells are finite, a result that is not is therefore a
literal of the formula, up to its sign.
-/
namespace Tabular

/-- The number is finite, or one of some given numbers up to its sign. -/
def Double.FiniteOr (ys : List Float) (x : Double) : Prop :=
  x.isFinite = true ∨ ∃ y ∈ ys, y.abs = x.toFloat.abs

/-- The value is no number, or one that is finite or among some given numbers up to its sign. -/
inductive Value.FiniteOr (ys : List Float) : Value → Prop
  | number {x : Double} (h : x.FiniteOr ys) : FiniteOr ys (.number x)
  | rest {v : Value} (h : v.number? = none) : FiniteOr ys v

variable {ys : List Float}

namespace Double.FiniteOr

theorem of_mem {x : Float} (h : x ∈ ys) : FiniteOr ys x :=
  .inr ⟨x, h, by rw [toFloat_ofFloat]⟩

theorem neg {x : Double} (h : FiniteOr ys x) : FiniteOr ys (-x) := by
  rwa [FiniteOr, isFinite, toFloat_neg, Number.isFinite_neg, Number.abs_neg]

theorem abs {x : Double} (h : FiniteOr ys x) : FiniteOr ys x.abs := by
  rwa [FiniteOr, isFinite, toFloat_abs, Number.isFinite_abs, Number.abs_abs]

end Double.FiniteOr

namespace Value

theorem FiniteOr.of_number {x : Double} (h : (Value.number x).FiniteOr ys) : x.FiniteOr ys := by
  cases h with
  | number h => exact h
  | rest h => cases h

/-- Evaluation makes no infinite numbers of others. -/
theorem closed_finiteOr (ys : List Float) : Closed (fun _ => False) (FiniteOr ys) where
  finite _ h := .number (.inl h)
  neg _ h := .number h.of_number.neg
  abs _ h := .number h.of_number.abs
  text _ := .rest rfl
  boolean _ := .rest rfl
  missing := .rest rfl
  error _ := iff_of_true (.rest rfl) id
  divByZero := id
  invalidRef := id
  typeMismatch := id

end Value

/-- The numbers in the cells are finite. -/
def Table.Finite (t : Table) : Prop :=
  ∀ c ∈ t.columns, ∀ v ∈ c.values, ∀ x ∈ v.number?, x.isFinite = true

instance (t : Table) : Decidable t.Finite :=
  inferInstanceAs (Decidable (∀ c ∈ t.columns, ∀ v ∈ c.values, ∀ x ∈ v.number?, x.isFinite = true))

namespace Formula

theorem finiteOr_eval {ctx : Context} (h : ctx.table.Finite) (e : Expr) (hys : ∀ x ∈ e.literals, x ∈ ys) :
    (eval ctx e).FiniteOr ys := by
  have hcells : ctx.table.All (Value.FiniteOr ys) := by
    intro c hc v hv
    cases v with
    | number x => exact .number (.inl (h c hc _ hv x rfl))
    | _ => exact .rest rfl
  exact eval_closed (Value.closed_finiteOr ys) hcells e (fun x hx => .number (.of_mem (hys x hx))) nofun

/-- Where all cells are finite, the number that a formula gives is finite, or an infinite literal of
the formula up to its sign. -/
theorem evalText_number {t : Table} (ht : t.Finite) {s : String} {r : Option Nat} {x : Double}
    (h : evalText s t r = .number x) :
    x.isNaN = false ∧ (x.isFinite = true ∨
      ∃ e, parseText s = .ok e ∧ ∃ y ∈ e.literals, y.isFinite = false ∧ y.abs = x.toFloat.abs) := by
  unfold evalText at h
  split at h
  next e he =>
    have hvalue : (eval ⟨t, r⟩ e).FiniteOr e.literals := finiteOr_eval ht e fun _ => id
    rw [h] at hvalue
    obtain hx | ⟨y, hy, habs⟩ := hvalue.of_number
    · exact ⟨Double.isNaN_of_isFinite hx, .inl hx⟩
    · have hnan : x.isNaN = false := by
        rw [Double.isNaN, ← Number.isNaN_abs, ← habs, Number.isNaN_abs]
        exact isNaN_of_mem_literals he hy
      refine ⟨hnan, or_iff_not_imp_left.mpr fun hx => ⟨e, he, y, hy, ?_, habs⟩⟩
      rw [← Number.isFinite_abs, habs, Number.isFinite_abs]
      exact Bool.eq_false_iff.mpr hx
  next => cases h

def oneReading : Table := ⟨[⟨"reading", .number, [.number 2.5, .missing]⟩], 2⟩

theorem evalText_greatest_reading :
    oneReading.Finite ∧ evalText "-MAX(A1:A2, 1e999)" oneReading none = .number (-1e999) ∧
    ((-1e999 : Double).isNaN = false ∧ ((-1e999 : Double).isFinite = true ∨
      ∃ e, parseText "-MAX(A1:A2, 1e999)" = .ok e ∧
        ∃ y ∈ e.literals, y.isFinite = false ∧ y.abs = (-1e999 : Double).toFloat.abs)) := by
  have hfinite : oneReading.Finite := by decide +kernel
  have hvalue : evalText "-MAX(A1:A2, 1e999)" oneReading none = .number (-1e999) := by
    decide +kernel
  exact ⟨hfinite, hvalue, evalText_number hfinite hvalue⟩

/-- A literal beyond the greatest number has an infinite value even where there are no cells. -/
theorem evalText_overflowing_literal :
    Table.empty.Finite ∧ ∃ x, evalText "1e999" .empty none = .number x ∧ x.isFinite = false :=
  ⟨nofun, 1e999, by decide +kernel, by decide +kernel⟩

end Formula

end Tabular
