import Tabular.Formula.Eval

/-!
# The error of a call

Sums, averages, extremes and the two connectives read the cells of all arguments before they look
at any of them. An argument without cells, computed to an error or referring to nothing, therefore
comes before all error cells. Among such arguments the first one is the result, and so it is among
error cells.
-/
namespace Tabular

/-- The error, if the value is one. -/
def Value.error? : Value → Option CellError
  | .error e => some e
  | _ => none

theorem Aggregate.numbers_eq_error {cells : List Value} {e : CellError}
    (h : (cells.filterMap Value.error?).head? = some e) : numbers cells = .error e := by
  induction cells with
  | nil => cases h
  | cons v rest ih =>
    cases v with
    | error e' =>
      cases h
      rfl
    | number n => rw [numbers, ih h, Except.map]
    | _ => exact ih h

namespace Formula

theorem flags_eq_error {cells : List Value} {e : CellError}
    (h : (cells.filterMap Value.error?).head? = some e) : flags cells = .error e := by
  induction cells with
  | nil => cases h
  | cons v rest ih =>
    cases v with
    | error e' =>
      cases h
      rfl
    | number n => rw [flags, ih h, Except.map]
    | boolean b => rw [flags, ih h, Except.map]
    | _ => exact ih h

variable {ctx : Context}

namespace Argument

/-- Why there is no result, if there is none. -/
def failureOf {α : Type} : Except CellError α → Option CellError
  | .ok _ => none
  | .error e => some e

/-- The errors met in reading some cells: those among them, or the one for which there are none. -/
def errorsIn : Except CellError (List Value) → List CellError
  | .ok cells => cells.filterMap Value.error?
  | .error e => [e]

/-- Why an argument has no cells: it was computed to an error, or its reference is invalid. -/
def failure? (ctx : Context) : Argument → Option CellError
  | cell address => failureOf (ctx.cell address)
  | range corner opposite => failureOf (ctx.range corner opposite)
  | computed v => v.error?

/-- The errors that a walk over an argument meets, a range being walked row by row. -/
def errors (ctx : Context) : Argument → List CellError
  | cell address => errorsIn ((ctx.cell address).map fun v => [v])
  | range corner opposite =>
    errorsIn ((ctx.range corner opposite).map fun r => (ctx.table.rangeRows r).flatten)
  | computed v => v.error?.toList

variable {a : Argument} {arguments : List Argument} {e : CellError}

/-- Either the walk over an argument meets its failure only, or it meets the errors among its
cells. -/
theorem cells_cases (ctx : Context) (a : Argument) :
    (∃ e, a.failure? ctx = some e ∧ a.cells ctx = .error e ∧ a.errors ctx = [e]) ∨
    (∃ vs, a.failure? ctx = none ∧ a.cells ctx = .ok vs ∧
      a.errors ctx = vs.filterMap Value.error?) := by
  cases a with
  | cell address =>
    rw [failure?, cells, errors]
    cases ctx.cell address with
    | ok v => exact .inr ⟨[v], rfl, rfl, rfl⟩
    | error e => exact .inl ⟨e, rfl, rfl, rfl⟩
  | range corner opposite =>
    rw [failure?, cells, errors]
    cases ctx.range corner opposite with
    | ok r => exact .inr ⟨ctx.table.rangeValues r, rfl, rfl, rfl⟩
    | error e => exact .inl ⟨e, rfl, rfl, rfl⟩
  | computed v =>
    cases v with
    | error e => exact .inl ⟨e, rfl, rfl, rfl⟩
    | _ => exact .inr ⟨_, rfl, rfl, rfl⟩

theorem errors_of_failure {a : Argument} {e : CellError} (h : a.failure? ctx = some e) :
    a.errors ctx = [e] := by
  obtain ⟨e', hfailure, -, herrors⟩ | ⟨vs, hfailure, -⟩ := cells_cases ctx a
  · rw [herrors, Option.some.inj (h.symm.trans hfailure)]
  · rw [hfailure] at h
    cases h

theorem mapM_cells_cases (ctx : Context) (arguments : List Argument) :
    (∃ e, arguments.findSome? (failure? ctx) = some e ∧ arguments.mapM (cells ctx) = .error e) ∨
    (∃ lists, arguments.findSome? (failure? ctx) = none ∧ arguments.mapM (cells ctx) = .ok lists ∧
      arguments.flatMap (errors ctx) = lists.flatten.filterMap Value.error?) := by
  induction arguments with
  | nil => exact .inr ⟨[], rfl, rfl, rfl⟩
  | cons a rest ih =>
    rw [List.findSome?_cons, List.mapM_cons, List.flatMap_cons]
    obtain ⟨e, hfailure, hcells, -⟩ | ⟨vs, hfailure, hcells, herrors⟩ := cells_cases ctx a
    · rw [hfailure, hcells]
      exact .inl ⟨e, rfl, rfl⟩
    · rw [hfailure, hcells, herrors]
      obtain ⟨e, hfailures, hlists⟩ | ⟨lists, hfailures, hlists, hrest⟩ := ih
      · rw [hfailures, hlists]
        exact .inl ⟨e, rfl, rfl⟩
      · rw [hfailures, hlists, hrest, ← List.filterMap_append, ← List.flatten_cons]
        exact .inr ⟨vs :: lists, rfl, rfl, rfl⟩

/-- Either an argument fails, the first to do so for all, or a walk over the arguments meets the
errors among the cells that they have in all. -/
theorem allCells_cases (ctx : Context) (arguments : List Argument) :
    (∃ e, arguments.findSome? (failure? ctx) = some e ∧ allCells ctx arguments = .error e) ∨
    (∃ vs, arguments.findSome? (failure? ctx) = none ∧ allCells ctx arguments = .ok vs ∧
      arguments.flatMap (errors ctx) = vs.filterMap Value.error?) := by
  rw [allCells]
  obtain ⟨e, hfailure, h⟩ | ⟨lists, hfailure, h, herrors⟩ := mapM_cells_cases ctx arguments
  · exact .inl ⟨e, hfailure, by rw [h, Except.map]⟩
  · exact .inr ⟨lists.flatten, hfailure, by rw [h, Except.map], herrors⟩

end Argument

open Argument

/-- The functions that take in all cells of their arguments and are undone by an error among them. -/
def Function.strict : List Function :=
  [.aggregate .sum, .aggregate .average, .aggregate .min, .aggregate .max, .and, .or]

variable {f : Function} {arguments : List Argument} {e : CellError}

theorem applyFunction_of_failure (hf : f ∈ Function.strict)
    (h : allCells ctx arguments = .error e) : applyFunction ctx f arguments = .error e := by
  simp only [Function.strict, List.mem_cons, List.not_mem_nil, or_false] at hf
  obtain rfl | rfl | rfl | rfl | rfl | rfl := hf <;> rw [applyFunction, h] <;> rfl

theorem ofExcept_judge {vs : List Value} (h : flags vs = .error e) (test : List Bool → Bool) :
    Value.ofExcept (judge test vs) = .error e := by
  rw [judge, h]
  rfl

theorem applyFunction_of_error_cell (hf : f ∈ Function.strict) {vs : List Value}
    (h : allCells ctx arguments = .ok vs) (he : (vs.filterMap Value.error?).head? = some e) :
    Value.ofExcept (applyFunction ctx f arguments) = .error e := by
  have hreduce (a : Aggregate) (ha : a.reduce vs = .ofExcept ((Aggregate.numbers vs).map a.ofNumbers)) :
      a.reduce vs = .error e := by
    rw [ha, Aggregate.numbers_eq_error he]
    rfl
  have hjudge := ofExcept_judge (flags_eq_error he)
  simp only [Function.strict, List.mem_cons, List.not_mem_nil, or_false] at hf
  obtain rfl | rfl | rfl | rfl | rfl | rfl := hf <;> rw [applyFunction, h]
  · exact hreduce .sum rfl
  · exact hreduce .average rfl
  · exact hreduce .min rfl
  · exact hreduce .max rfl
  · exact hjudge _
  · exact hjudge _

theorem applyCall_of_error {name : String} (hname : Function.ofName? name = some f)
    (hf : f ∈ Function.strict) (haccepts : f.arity.accepts arguments.length) :
    (arguments.findSome? (failure? ctx) = some e → applyCall ctx name arguments = .error e) ∧
    ((arguments.flatMap (errors ctx)).head? = some e →
      (∀ before a after, arguments = before ++ a :: after → a.failure? ctx ≠ none →
        (∀ b ∈ before, b.failure? ctx = none) → before.flatMap (errors ctx) = []) →
      applyCall ctx name arguments = .error e) := by
  have hcall : applyCall ctx name arguments = .ofExcept (applyFunction ctx f arguments) := by
    rw [applyCall, hname]
    exact if_pos haccepts
  rw [hcall]
  obtain ⟨e', hfailure, hcells⟩ | ⟨vs, hfailure, hcells, herrors⟩ := allCells_cases ctx arguments
  · rw [applyFunction_of_failure hf hcells, hfailure]
    refine ⟨fun h => congrArg Value.error (Option.some.inj h), fun hwalk hbefore => ?_⟩
    obtain ⟨before, a, after, rfl, ha, hfirst⟩ := List.findSome?_eq_some_iff.mp hfailure
    have hnone := hbefore before a after rfl (by simp [ha]) hfirst
    rw [List.flatMap_append, hnone, List.flatMap_cons, errors_of_failure ha] at hwalk
    exact congrArg Value.error (Option.some.inj hwalk)
  · rw [hfailure, herrors]
    exact ⟨nofun, fun he _ => applyFunction_of_error_cell hf hcells he⟩

/-- The value of a call that an error undoes. The first failing argument is the result, and without
one the first error cell. A walk over the arguments meets that very error first, unless an argument
with an error cell stands before the first one that fails. -/
theorem eval_call_of_error {name : String} {es : List Expr} (hname : Function.ofName? name = some f)
    (hf : f ∈ Function.strict) (haccepts : f.arity.accepts es.length) :
    ((evalArguments ctx es).findSome? (failure? ctx) = some e →
      eval ctx (.call name es) = .error e) ∧
    (((evalArguments ctx es).flatMap (errors ctx)).head? = some e →
      (∀ before a after, evalArguments ctx es = before ++ a :: after → a.failure? ctx ≠ none →
        (∀ b ∈ before, b.failure? ctx = none) → before.flatMap (errors ctx) = []) →
      eval ctx (.call name es) = .error e) := by
  have hlength : (evalArguments ctx es).length = es.length := by
    rw [evalArguments_eq_map, List.length_map]
  rw [eval]
  exact applyCall_of_error hname hf (hlength ▸ haccepts)

/-- A table with an error in each row, the later column's first. -/
def twoFaults : Table :=
  ⟨[⟨"A", .mixed, [.number 1.0, .error .divByZero]⟩,
    ⟨"B", .mixed, [.error .typeMismatch, .text "x"]⟩], 2⟩

theorem eval_calls_of_twoFaults :
    (Function.ofName? "Sum" = some (.aggregate .sum) ∧ .aggregate .sum ∈ Function.strict ∧
      (Function.aggregate .sum).arity.accepts 2) ∧
    (((evalArguments ⟨twoFaults, none⟩ [.cell "A1", .range "A1" "B9"]).flatMap
        (errors ⟨twoFaults, none⟩)).head? = some .typeMismatch ∧
      eval ⟨twoFaults, none⟩ (.call "Sum" [.cell "A1", .range "A1" "B9"]) =
        .error .typeMismatch) ∧
    ((evalArguments ⟨twoFaults, none⟩ [.cell "A2", .range "C1" "D2"]).findSome?
        (failure? ⟨twoFaults, none⟩) = some .invalidRef ∧
      eval ⟨twoFaults, none⟩ (.call "Sum" [.cell "A2", .range "C1" "D2"]) =
        .error .invalidRef) := by
  have hname : Function.ofName? "Sum" = some (.aggregate .sum) := by decide +kernel
  have hsum : .aggregate .sum ∈ Function.strict := by decide
  have haccepts (x y : Expr) : (Function.aggregate .sum).arity.accepts [x, y].length := rfl
  have hwalk : ((evalArguments ⟨twoFaults, none⟩ [.cell "A1", .range "A1" "B9"]).flatMap
      (errors ⟨twoFaults, none⟩)).head? = some .typeMismatch := by decide +kernel
  have hnone : (evalArguments ⟨twoFaults, none⟩ [.cell "A1", .range "A1" "B9"]).findSome?
      (failure? ⟨twoFaults, none⟩) = none := by decide +kernel
  have hfailure : (evalArguments ⟨twoFaults, none⟩ [.cell "A2", .range "C1" "D2"]).findSome?
      (failure? ⟨twoFaults, none⟩) = some .invalidRef := by decide +kernel
  refine ⟨⟨hname, hsum, by decide⟩,
    ⟨hwalk, (eval_call_of_error hname hsum (haccepts _ _)).2 hwalk fun before a after heq ha _ => ?_⟩,
    hfailure, (eval_call_of_error hname hsum (haccepts _ _)).1 hfailure⟩
  rw [heq] at hnone
  exact absurd (List.findSome?_eq_none_iff.mp hnone a (by simp)) ha

/-- The error cell of the first argument gives way to the bad reference behind it. -/
theorem eval_error_cell_before_bad_reference :
    ((evalArguments ⟨twoFaults, none⟩ [.cell "A2", .cell "Z9"]).flatMap
        (errors ⟨twoFaults, none⟩)).head? = some .divByZero ∧
    eval ⟨twoFaults, none⟩ (.call "SUM" [.cell "A2", .cell "Z9"]) = .error .invalidRef := by
  decide +kernel

end Formula

end Tabular
