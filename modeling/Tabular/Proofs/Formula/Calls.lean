import Tabular.Proofs.Formula.Closed

/-!
# Errors of calls

A call has an error of its own when its name is of no function or when the function does not accept so
many arguments. In a table without such errors, expressions have them for no other reason: a function
with as many arguments as it accepts finds each one that it takes.
-/
namespace Tabular

/-- The errors of calls that are not well formed. -/
inductive CellError.OfCall : CellError → Prop
  | unknownFunction : OfCall .unknownFunction
  | malformed : OfCall .malformed

/-- The value is no error of a call. -/
def Value.Clear (v : Value) : Prop := ∀ e, v = .error e → ¬e.OfCall

theorem Value.clear_iff {v : Value} :
    v.Clear ↔ v ≠ .error .unknownFunction ∧ v ≠ .error .malformed := by
  constructor
  · intro h
    exact ⟨fun hv => h _ hv .unknownFunction, fun hv => h _ hv .malformed⟩
  · rintro ⟨hunknown, hmalformed⟩ e rfl he
    cases he with
    | unknownFunction => exact hunknown rfl
    | malformed => exact hmalformed rfl

theorem Value.closed_clear : Closed CellError.OfCall Clear where
  finite _ _ := nofun
  neg _ _ := nofun
  abs _ _ := nofun
  text _ := nofun
  boolean _ := nofun
  missing := nofun
  error _ := ⟨fun h => h _ rfl, fun h _ he => Value.error.inj he ▸ h⟩
  divByZero := nofun
  invalidRef := nofun
  typeMismatch := nofun

namespace Formula

variable {ctx : Context}

/-- With fewer arguments than it takes, a function misses one of them. -/
theorem applyFunction_of_few (f : Function) {arguments : List Argument} (h : arguments.length < f.taken) :
    applyFunction ctx f arguments = .error .malformed := by
  match f, arguments, h with
  | .ifElse, [], _ => rfl
  | .ifElse, [_], _ => rfl
  | .sumIf, [], _ => rfl
  | .sumIf, [_], _ => rfl
  | .countIf, [], _ => rfl
  | .countIf, [_], _ => rfl
  | .round, [], _ => rfl
  | .abs, [], _ => rfl
  | .len, [], _ => rfl
  | .not, [], _ => rfl
  | .vlookup, [], _ => rfl
  | .vlookup, [_], _ => rfl
  | .vlookup, [_, _], _ => rfl

theorem Expr.WellCalled.of_hasCall {e : Expr} {name : String} {arguments : List Expr} (h : e.WellCalled)
    (hcall : e.HasCall name arguments) : (Expr.call name arguments).WellCalled := by
  induction hcall with
  | here => exact h
  | left _ ih => exact ih h.left
  | right _ ih => exact ih h.right
  | operand _ ih => exact ih h.operand
  | argument he _ ih => exact ih (h.argument he)

/-- Where all calls are well formed and no cell has an error of a call, the value of an expression is no
such error, and no function in it is short of an argument that it takes. -/
theorem eval_wellCalled {e : Expr}
    (hcells : ∀ c ∈ ctx.table.columns, ∀ v ∈ c.values, v ≠ .error .unknownFunction ∧ v ≠ .error .malformed)
    (h : e.WellCalled) :
    eval ctx e ≠ .error .unknownFunction ∧ eval ctx e ≠ .error .malformed ∧
    ∀ name arguments, e.HasCall name arguments →
      ∃ f, Function.ofName? name = some f ∧ f.taken ≤ arguments.length ∧
        applyFunction ctx f (evalArguments ctx arguments) ≠ .error .malformed ∧
        ∀ few : List Argument, few.length < f.taken → applyFunction ctx f few = .error .malformed := by
  have ht : ctx.table.All Value.Clear := fun c hc v hv => Value.clear_iff.mpr (hcells c hc v hv)
  have hvalue (d : Expr) (hd : d.WellCalled) : (eval ctx d).Clear :=
    eval_closed Value.closed_clear ht d (fun _ _ => nofun) fun _ _ => hd
  obtain ⟨hunknown, hmalformed⟩ := Value.clear_iff.mp (hvalue e h)
  refine ⟨hunknown, hmalformed, fun name arguments hcall => ?_⟩
  obtain ⟨f, hf, haccepts⟩ := h name arguments hcall
  have htaken := f.taken_le_of_accepts haccepts
  have harguments : ∀ a ∈ evalArguments ctx arguments, a.Has Value.Clear :=
    forall_mem_evalArguments.mpr fun d hd =>
      Argument.has_asArgument (hvalue d ((h.of_hasCall hcall).argument hd)) d
  refine ⟨f, hf, htaken, fun herror => ?_, fun few hfew => applyFunction_of_few f hfew⟩
  have hresult := applyFunction_yields Value.closed_clear ht f harguments fun _ => by
    rwa [length_evalArguments]
  rw [herror] at hresult
  exact hresult.not_bad .malformed

/-- The sum of a column, rounded. -/
def roundedSum : Expr := .call "Round" [.call "SUM" [.range "A1" "A9"]]

theorem wellCalled_roundedSum : roundedSum.WellCalled := by
  rintro name arguments (_ | _ | _ | _ | ⟨he, hcall⟩)
  · exact ⟨.round, by decide +kernel, rfl⟩
  obtain rfl := List.mem_singleton.mp he
  obtain _ | _ | _ | _ | ⟨he, hcall⟩ := hcall
  · exact ⟨.aggregate .sum, by decide +kernel, rfl⟩
  obtain rfl := List.mem_singleton.mp he
  cases hcall

def quotients : Table := ⟨[⟨"quotient", .number, [.number 0.5, .error .divByZero]⟩], 2⟩

theorem eval_roundedSum_quotients :
    (∀ c ∈ quotients.columns, ∀ v ∈ c.values, v ≠ .error .unknownFunction ∧ v ≠ .error .malformed) ∧
    roundedSum.WellCalled ∧ eval ⟨quotients, none⟩ roundedSum ≠ .error .unknownFunction ∧
    eval ⟨quotients, none⟩ roundedSum ≠ .error .malformed ∧
    ∀ name arguments, roundedSum.HasCall name arguments →
      ∃ f, Function.ofName? name = some f ∧ f.taken ≤ arguments.length ∧
        applyFunction ⟨quotients, none⟩ f (evalArguments ⟨quotients, none⟩ arguments) ≠ .error .malformed ∧
        ∀ few : List Argument, few.length < f.taken →
          applyFunction ⟨quotients, none⟩ f few = .error .malformed := by
  have hcells : ∀ c ∈ quotients.columns, ∀ v ∈ c.values,
      v ≠ .error .unknownFunction ∧ v ≠ .error .malformed := by decide +kernel
  refine ⟨hcells, wellCalled_roundedSum, ?_⟩
  apply eval_wellCalled
  · exact hcells
  · exact wellCalled_roundedSum

end Formula

end Tabular
