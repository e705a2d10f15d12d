import Tabular.Formula.Eval
import Tabular.Proofs.Table.Range

/-!
# Induction on expressions

An expression with arguments is proved about from all of its arguments at once.
-/
namespace Tabular.Formula

@[induction_eliminator]
theorem Expr.induct {motive : Expr → Prop} (number : ∀ n, motive (.number n))
    (text : ∀ s, motive (.text s)) (boolean : ∀ b, motive (.boolean b))
    (cell : ∀ address, motive (.cell address))
    (range : ∀ corner opposite, motive (.range corner opposite))
    (binary : ∀ op left right, motive left → motive right → motive (.binary op left right))
    (unary : ∀ sign operand, motive operand → motive (.unary sign operand))
    (call : ∀ name arguments, (∀ e ∈ arguments, motive e) → motive (.call name arguments))
    (e : Expr) : motive e :=
  @Expr.rec motive (fun es => ∀ e ∈ es, motive e) number text boolean cell range binary unary call
    nofun (fun _ _ he hes => List.forall_mem_cons.mpr ⟨he, hes⟩) e

/-- The call is somewhere in the expression. -/
inductive Expr.HasCall : Expr → String → List Expr → Prop
  | here (name : String) (arguments : List Expr) : HasCall (.call name arguments) name arguments
  | left {op : BinaryOp} {left right : Expr} {name : String} {arguments : List Expr}
    (h : HasCall left name arguments) : HasCall (.binary op left right) name arguments
  | right {op : BinaryOp} {left right : Expr} {name : String} {arguments : List Expr}
    (h : HasCall right name arguments) : HasCall (.binary op left right) name arguments
  | operand {sign : Sign} {operand : Expr} {name : String} {arguments : List Expr}
    (h : HasCall operand name arguments) : HasCall (.unary sign operand) name arguments
  | argument {outer name : String} {es arguments : List Expr} {e : Expr} (he : e ∈ es)
    (h : HasCall e name arguments) : HasCall (.call outer es) name arguments

/-- Every call in the expression, however deep, names a function and has as many arguments as it
accepts. -/
def Expr.WellCalled (e : Expr) : Prop :=
  ∀ name arguments, e.HasCall name arguments →
    ∃ f, Function.ofName? name = some f ∧ f.arity.accepts arguments.length = true

namespace Expr.WellCalled

variable {op : BinaryOp} {sign : Sign} {a b e : Expr} {name : String} {es : List Expr}

theorem left (h : (Expr.binary op a b).WellCalled) : a.WellCalled :=
  fun name arguments hcall => h name arguments (.left hcall)

theorem right (h : (Expr.binary op a b).WellCalled) : b.WellCalled :=
  fun name arguments hcall => h name arguments (.right hcall)

theorem operand (h : (Expr.unary sign e).WellCalled) : e.WellCalled :=
  fun name arguments hcall => h name arguments (.operand hcall)

theorem argument (h : (Expr.call name es).WellCalled) (he : e ∈ es) : e.WellCalled :=
  fun name arguments hcall => h name arguments (.argument he hcall)

end Expr.WellCalled

theorem Context.range_eq_ok {ctx : Context} {corner opposite : String} {r : RangeAddress} :
    ctx.range corner opposite = .ok r ↔
      RangeAddress.parseCorners corner opposite = .ok r ∧ ctx.table.contains r.start := by
  unfold Context.range
  constructor
  · intro h
    split at h
    next hchecked =>
      cases h
      obtain ⟨_, hparse, hcheck⟩ := bind_eq_ok.mp hchecked
      obtain ⟨rfl, hstart⟩ := Table.checkRange_eq_ok.mp hcheck
      exact ⟨hparse, hstart⟩
    next => cases h
  · rintro ⟨hparse, hstart⟩
    rw [bind_eq_ok.mpr ⟨r, hparse, Table.checkRange_eq_ok.mpr ⟨rfl, hstart⟩⟩]

theorem forall_mem_evalArguments {ctx : Context} {es : List Expr} {p : Argument → Prop} :
    (∀ a ∈ evalArguments ctx es, p a) ↔ ∀ e ∈ es, p (e.asArgument (eval ctx e)) := by
  rw [evalArguments_eq_map, List.forall_mem_map]

theorem length_evalArguments (ctx : Context) (es : List Expr) : (evalArguments ctx es).length = es.length := by
  rw [evalArguments_eq_map, List.length_map]

theorem evalArguments_append_cons (ctx : Context) (before after : List Expr) (e : Expr) :
    evalArguments ctx (before ++ e :: after) =
      evalArguments ctx before ++ e.asArgument (eval ctx e) :: evalArguments ctx after := by
  simp only [evalArguments_eq_map, List.map_append, List.map_cons]

/-- As a single value, an argument is what its expression evaluates to. -/
theorem scalar_asArgument (ctx : Context) (e : Expr) :
    (e.asArgument (eval ctx e)).scalar ctx = eval ctx e := by
  cases e with
  | cell address => rw [eval, Expr.asArgument]
  | range corner opposite => rw [eval, Expr.asArgument]
  | _ => rfl

theorem present_eq_ok {v : Value} (h : v.isError = false) : present v = .ok v := by
  cases v with
  | error e => cases h
  | _ => rfl

theorem required_asArgument {ctx : Context} (e : Expr) :
    (e.asArgument (eval ctx e)).required ctx = present (eval ctx e) := by
  rw [Argument.required, scalar_asArgument]

/-- The value of a call with as many arguments as its function accepts. -/
theorem eval_call {ctx : Context} {name : String} {f : Function} {es : List Expr}
    (hname : Function.ofName? name = some f) (haccepts : f.arity.accepts es.length) :
    eval ctx (.call name es) = .ofExcept (applyFunction ctx f (evalArguments ctx es)) := by
  rw [eval, applyCall, hname]
  exact if_pos ((length_evalArguments ctx es).symm ▸ haccepts)

end Tabular.Formula
