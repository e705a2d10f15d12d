import Tabular.Proofs.Formula.Expr
import Tabular.Proofs.Outcome

/-!
# Arguments that are read alike

A function reads an argument as a single value or as cells; a lookup reads its second argument in
rows, and ROW looks at the address in its first one. A call has one value on arguments that cannot be
told apart in these ways, in one context or in two.
-/
namespace Tabular.Formula

variable {ctx other : Context} {f : Function} {arguments others : List Argument}

namespace Argument

/-- The one argument is read in one context as the other one is in the other, be it as a single value
or as cells. -/
structure Alike (ctx other : Context) (a b : Argument) : Prop where
  scalar : a.scalar ctx = b.scalar other
  cells : a.cells ctx = b.cells other

namespace Alike

variable {a b : Argument}

theorem required (h : Alike ctx other a b) : a.required ctx = b.required other := by
  rw [Argument.required, Argument.required, h.scalar]

theorem number (h : Alike ctx other a b) : a.number ctx = b.number other := by
  rw [Argument.number, Argument.number, h.required]

theorem allCells (h : List.Forall₂ (Alike ctx other) arguments others) :
    allCells ctx arguments = allCells other others := by
  rw [Argument.allCells, Argument.allCells, mapM_eq_of_forall₂ (h.imp fun _ _ hab => hab.cells)]

theorem refl (a : Argument) : Alike ctx ctx a a := ⟨rfl, rfl⟩

end Alike

end Argument

/-- ROW looks at its first argument only. -/
theorem applyFunction_row_congr {a b : Argument}
    (h : applyFunction ctx .row [a] = applyFunction other .row [b]) (arguments others : List Argument) :
    applyFunction ctx .row (a :: arguments) = applyFunction other .row (b :: others) := by
  have hfirst (ctx : Context) (a : Argument) (rest : List Argument) :
      applyFunction ctx .row (a :: rest) = applyFunction ctx .row [a] := by
    cases a <;> rfl
  rw [hfirst, h, ← hfirst other]

/-- A function has one value on arguments that are read alike, provided that a lookup finds the same
rows and that ROW has the same value. -/
theorem applyFunction_of_alike (h : List.Forall₂ (Argument.Alike ctx other) arguments others)
    (hrows : f = .vlookup → arguments[1]?.map (·.rows ctx) = others[1]?.map (·.rows other))
    (hrow : f = .row → applyFunction ctx .row arguments = applyFunction other .row others) :
    applyFunction ctx f arguments = applyFunction other f others := by
  cases f with
  | aggregate a => rw [applyFunction, applyFunction, Argument.Alike.allCells h]
  | and => rw [applyFunction, applyFunction, Argument.Alike.allCells h]
  | or => rw [applyFunction, applyFunction, Argument.Alike.allCells h]
  | concat =>
    have htexts := h.imp fun a b hab => congrArg (Except.map Value.toText) hab.required
    rw [applyFunction, applyFunction, mapM_eq_of_forall₂ htexts]
  | ifElse =>
    obtain _ | ⟨hcondition, _ | ⟨hyes, _ | ⟨hno, -⟩⟩⟩ := h
    · rfl
    · rfl
    · simp only [applyFunction, hcondition.scalar, hyes.scalar, List.head?_nil, Option.map_none]
    · simp only [applyFunction, hcondition.scalar, hyes.scalar, hno.scalar, List.head?_cons,
        Option.map_some]
  | round =>
    obtain _ | ⟨hx, _ | ⟨hplaces, -⟩⟩ := h
    · rfl
    · simp only [applyFunction, hx.number]
    · simp only [applyFunction, hx.number, hplaces.number]
  | abs =>
    obtain _ | ⟨hx, -⟩ := h
    · rfl
    · simp only [applyFunction, hx.number]
  | len =>
    obtain _ | ⟨hx, -⟩ := h
    · rfl
    · simp only [applyFunction, hx.required]
  | not =>
    obtain _ | ⟨hx, -⟩ := h
    · rfl
    · simp only [applyFunction, hx.required]
  | countIf =>
    obtain _ | ⟨hrange, _ | ⟨hcriterion, -⟩⟩ := h
    · rfl
    · rfl
    · simp only [applyFunction, hrange.cells, hcriterion.required]
  | sumIf =>
    obtain _ | ⟨hrange, _ | ⟨hcriterion, _ | ⟨hsummed, -⟩⟩⟩ := h
    · rfl
    · rfl
    · simp only [applyFunction, hrange.cells, hcriterion.required]
    · simp only [applyFunction, hrange.cells, hcriterion.required, hsummed.cells]
  | vlookup =>
    obtain _ | ⟨hneedle, _ | ⟨-, _ | ⟨hcolumn, hmode⟩⟩⟩ := h
    · rfl
    · rfl
    · rfl
    · have hfound := Option.some.inj (hrows rfl)
      dsimp only at hfound
      obtain _ | ⟨hmode, -⟩ := hmode
      · simp only [applyFunction, hneedle.required, hfound, hcolumn.number]
      · simp only [applyFunction, hneedle.required, hfound, hcolumn.number, hmode.required]
  | row => exact hrow rfl

theorem eval_call_of_alike {name : String} {es es' : List Expr}
    (h : List.Forall₂ (Argument.Alike ctx other) (evalArguments ctx es) (evalArguments other es'))
    (hrows : Function.ofName? name = some .vlookup →
      (evalArguments ctx es)[1]?.map (·.rows ctx) = (evalArguments other es')[1]?.map (·.rows other))
    (hrow : Function.ofName? name = some .row →
      applyFunction ctx .row (evalArguments ctx es) = applyFunction other .row (evalArguments other es')) :
    eval ctx (.call name es) = eval other (.call name es') := by
  rw [eval, eval, applyCall, applyCall, h.length_eq]
  cases hf : Function.ofName? name with
  | none => rfl
  | some f =>
    dsimp only
    rw [applyFunction_of_alike h (fun hlookup => hrows (hlookup ▸ hf)) fun hown => hrow (hown ▸ hf)]

/-- In one context, the expressions are read alike as arguments, also in rows. -/
structure Expr.Alike (ctx : Context) (e e' : Expr) : Prop where
  argument : Argument.Alike ctx ctx (e.asArgument (eval ctx e)) (e'.asArgument (eval ctx e'))
  rows : (e.asArgument (eval ctx e)).rows ctx = (e'.asArgument (eval ctx e')).rows ctx

/-- A call has one value on expressions that are read alike, provided that ROW has the same value. -/
theorem eval_call_of_forall₂ {name : String} {es es' : List Expr} (h : List.Forall₂ (Expr.Alike ctx) es es')
    (hrow : Function.ofName? name = some .row → ∀ e ∈ es.head?, ∀ e' ∈ es'.head?,
      applyFunction ctx .row [e.asArgument (eval ctx e)] =
        applyFunction ctx .row [e'.asArgument (eval ctx e')]) :
    eval ctx (.call name es) = eval ctx (.call name es') := by
  refine eval_call_of_alike ?_ (fun _ => ?_) fun hname => ?_
  · simp only [evalArguments_eq_map, List.forall₂_map_left_iff, List.forall₂_map_right_iff]
    exact h.imp fun _ _ halike => halike.argument
  · have hrows : (evalArguments ctx es).map (·.rows ctx) = (evalArguments ctx es').map (·.rows ctx) := by
      simp only [evalArguments_eq_map, ← List.forall₂_eq_eq_eq, List.forall₂_map_left_iff,
        List.forall₂_map_right_iff]
      exact h.imp fun _ _ halike => halike.rows
    rw [← List.getElem?_map, ← List.getElem?_map, hrows]
  · cases h with
    | nil => rfl
    | cons =>
      rw [evalArguments, evalArguments]
      exact applyFunction_row_congr (hrow hname _ rfl _ rfl) _ _

end Tabular.Formula
