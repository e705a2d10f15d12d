import Tabular.Proofs.Formula.Cells
import Tabular.Proofs.Number.Order

/-!
# Averages are quotients

An average is the sum of the numbers among cells divided by their count, also where there is none. An
error that undoes the sum undoes the average. Without numbers the count is zero, by which there is no
division. A sum that is no finite number has no finite quotient, so that both are the same error.
-/
namespace Tabular

open Formula

namespace Aggregate

variable {cells : List Value} {ns : List Double}

theorem numbers_eq_ok (h : numbers cells = .ok ns) : ns = cells.filterMap Value.number? := by
  induction cells generalizing ns with
  | nil => exact (Except.ok.inj h).symm
  | cons v rest ih =>
    cases v with
    | error e => cases h
    | number x =>
      rw [numbers] at h
      cases hrest : numbers rest with
      | error e =>
        rw [hrest] at h
        cases h
      | ok xs =>
        rw [hrest] at h
        rw [← Except.ok.inj h, ih hrest]
        rfl
    | _ => exact ih h

/-- The numbers are as many as are counted. -/
theorem length_numbers (h : numbers cells = .ok ns) :
    ns.length = cells.countP (·.number?.isSome) := by
  rw [numbers_eq_ok h, List.length_filterMap_eq_countP]

/-- The quotient of a sum and a count that is not zero. -/
theorem divide_ofFloat {x : Float} {n : Nat} (hpos : 0 < n) (hn : n < 2 ^ 64) :
    applyBinary .divide (.ofFloat x) (.ofNat n) = .ofFloat (x / Float.ofNat n) := by
  have hword : 0 < n.toUInt64.toNat := by rwa [UInt64.toNat_ofNat_of_lt' hn]
  rw [Number.ofNat_eq_toFloat hn]
  cases hx : x.isFinite with
  | true =>
    rw [Value.ofFloat, if_pos hx, Value.ofNat, applyBinary, Double.isZero_ofFloat,
      Number.toFloat_beq_zero hword, if_neg Bool.false_ne_true, Double.toFloat_ofFloat,
      Double.toFloat_ofFloat]
  | false =>
    have hquotient := Number.isFinite_div hx (Number.isFinite_toFloat n.toUInt64)
    rw [Value.ofFloat, if_neg (by simp [hx]), Value.ofFloat, if_neg (by simp [hquotient]), applyBinary]

/-- The average of cells is the quotient of their sum and their count. A count is a word of 64 bits. -/
theorem reduce_average (hcount : cells.countP (·.number?.isSome) < 2 ^ 64) :
    average.reduce cells = applyBinary .divide (sum.reduce cells) (count.reduce cells) := by
  have hsum : sum.reduce cells = .ofExcept ((numbers cells).map sum.ofNumbers) := rfl
  have haverage : average.reduce cells = .ofExcept ((numbers cells).map average.ofNumbers) := rfl
  rw [hsum, haverage, reduce]
  cases hnumbers : numbers cells with
  | error e => rfl
  | ok ns =>
    rw [← length_numbers hnumbers] at hcount ⊢
    cases ns with
    | nil => rfl
    | cons n rest => exact (divide_ofFloat (Nat.succ_pos _) hcount).symm

end Aggregate

namespace Formula

variable {ctx : Context} {name average sum count : String} {a : Aggregate} {es : List Expr}

theorem eval_aggregate (hname : Function.ofName? name = some (.aggregate a)) (hes : es ≠ []) :
    eval ctx (.call name es) =
      .ofExcept ((Argument.allCells ctx (evalArguments ctx es)).map a.reduce) := by
  have haccepts : (Function.aggregate a).arity.accepts es.length :=
    decide_eq_true (List.length_pos_iff.mpr hes)
  rw [eval_call hname haccepts, applyFunction]

theorem eval_aggregate_nil (hname : Function.ofName? name = some (.aggregate a)) :
    eval ctx (.call name []) = .error .malformed := by
  rw [eval, applyCall, hname]
  rfl

/-- The average over arguments of any kind has the value of their sum divided by their count. The
numbers are counted in a word of 64 bits. -/
theorem eval_average (haverage : Function.ofName? average = some (.aggregate .average))
    (hsum : Function.ofName? sum = some (.aggregate .sum))
    (hcount : Function.ofName? count = some (.aggregate .count))
    (hcells : ∀ cells, Argument.allCells ctx (evalArguments ctx es) = .ok cells →
      cells.countP (·.number?.isSome) < 2 ^ 64) :
    eval ctx (.call average es) = eval ctx (.binary .divide (.call sum es) (.call count es)) := by
  rw [eval]
  by_cases hes : es = []
  · rw [hes, eval_aggregate_nil haverage, eval_aggregate_nil hsum, applyBinary]
  · rw [eval_aggregate haverage hes, eval_aggregate hsum hes, eval_aggregate hcount hes]
    cases h : Argument.allCells ctx (evalArguments ctx es) with
    | error e => rfl
    | ok cells => exact Aggregate.reduce_average (hcells cells h)

/-- Numbers with a sum beyond the greatest number, cells without numbers, and a number behind an error. -/
def loads : Table :=
  ⟨[⟨"peak", .number, [.number 1e308, .number 1e308]⟩, ⟨"note", .mixed, [.text "2", .missing]⟩,
    ⟨"rate", .number, [.error .unknownFunction, .number 3.0]⟩], 2⟩

/-- Arguments with too great a sum, without numbers, with an error cell, with a bad reference before an
error cell, and with an average. -/
def loadArguments : List (List Expr) :=
  [[.range "A1" "A2"], [.range "B1" "B2"], [.cell "A1", .range "C1" "C2"],
    [.cell "C2", .cell "Z9", .cell "C1"], [.cell "A2", .range "B1" "B2", .number 4.0]]

theorem eval_average_loads :
    (Function.ofName? "Average" = some (.aggregate .average) ∧
      Function.ofName? "sum" = some (.aggregate .sum) ∧
      Function.ofName? "COUNT" = some (.aggregate .count)) ∧
    (∀ es ∈ loadArguments,
      (∀ cells, Argument.allCells ⟨loads, none⟩ (evalArguments ⟨loads, none⟩ es) = .ok cells →
        cells.countP (·.number?.isSome) < 2 ^ 64) ∧
      eval ⟨loads, none⟩ (.call "Average" es) =
        eval ⟨loads, none⟩ (.binary .divide (.call "sum" es) (.call "COUNT" es))) ∧
    loadArguments.map (fun es => eval ⟨loads, none⟩ (.call "Average" es)) =
      [.error .typeMismatch, .error .divByZero, .error .unknownFunction, .error .invalidRef, .number 5e307] := by
  have haverage : Function.ofName? "Average" = some (.aggregate .average) := by decide +kernel
  have hsum : Function.ofName? "sum" = some (.aggregate .sum) := by decide +kernel
  have hcount : Function.ofName? "COUNT" = some (.aggregate .count) := by decide +kernel
  have hfew : ∀ es ∈ loadArguments,
      (Argument.allCells ⟨loads, none⟩ (evalArguments ⟨loads, none⟩ es)).toOption.all fun cells =>
        cells.countP (·.number?.isSome) < 2 ^ 64 := by decide +kernel
  refine ⟨⟨haverage, hsum, hcount⟩, fun es hes => ?_, by decide +kernel⟩
  have hcells (cells : List Value)
      (h : Argument.allCells ⟨loads, none⟩ (evalArguments ⟨loads, none⟩ es) = .ok cells) :
      cells.countP (·.number?.isSome) < 2 ^ 64 := by
    have hall := hfew es hes
    rw [h] at hall
    exact of_decide_eq_true hall
  exact ⟨hcells, eval_average haverage hsum hcount hcells⟩

end Formula

end Tabular
