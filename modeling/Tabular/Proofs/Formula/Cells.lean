import Tabular.Proofs.Formula.Expr
import Tabular.Proofs.Table.Range

/-!
# Functions of cells

Aggregates and the two connectives take in the cells of all their arguments as one list, in which
missing cells do not count. Their value over a range that runs past the edge of the table is therefore
the value over its whole rectangle, the table going on with missing cells.
-/
namespace Tabular

theorem Aggregate.numbers_filter (cells : List Value) :
    numbers (cells.filter (!·.isMissing)) = numbers cells := by
  induction cells with
  | nil => rfl
  | cons v rest ih =>
    cases v with
    | number n => exact congrArg (Except.map (n :: ·)) ih
    | error e => rfl
    | _ => exact ih

theorem Aggregate.reduce_filter (a : Aggregate) (cells : List Value) :
    a.reduce (cells.filter (!·.isMissing)) = a.reduce cells := by
  have hnumber (v : Value) : (v.number?.isSome && !v.isMissing) = v.number?.isSome := by
    cases v <;> rfl
  cases a with
  | count => simp only [reduce, List.countP_filter, hnumber]
  | countPresent => simp only [reduce, List.countP_filter, Bool.and_self]
  | _ => simp only [reduce, numbers_filter]

namespace Formula

theorem flags_filter (cells : List Value) : flags (cells.filter (!·.isMissing)) = flags cells := by
  induction cells with
  | nil => rfl
  | cons v rest ih =>
    cases v with
    | number n => exact congrArg (Except.map fun bs => (!n.isZero) :: bs) ih
    | boolean b => exact congrArg (Except.map (b :: ·)) ih
    | error e => rfl
    | _ => exact ih

/-- What a function makes of the cells of all its arguments, if it takes them in as one list: the
aggregates and the two connectives do. -/
def Function.onCells? : Function → Option (List Value → Except CellError Value)
  | .aggregate a => some fun cells => .ok (a.reduce cells)
  | .and => some (judge (·.all id))
  | .or => some (judge (·.any id))
  | _ => none

variable {f : Function} {g : List Value → Except CellError Value}

/-- Missing cells do not count. -/
theorem onCells_filter (hf : f.onCells? = some g) (cells : List Value) :
    g (cells.filter (!·.isMissing)) = g cells := by
  cases f with
  | aggregate a =>
    cases hf
    exact congrArg Except.ok (a.reduce_filter cells)
  | and =>
    cases hf
    rw [judge, judge, flags_filter]
  | or =>
    cases hf
    rw [judge, judge, flags_filter]
  | _ => cases hf

theorem applyFunction_of_onCells {ctx : Context} (hf : f.onCells? = some g) (arguments : List Argument) :
    applyFunction ctx f arguments = Argument.allCells ctx arguments >>= g := by
  cases f with
  | aggregate a =>
    cases hf
    rw [applyFunction]
    cases Argument.allCells ctx arguments <;> rfl
  | and =>
    cases hf
    rw [applyFunction]
  | or =>
    cases hf
    rw [applyFunction]
  | _ => cases hf

/-- The value of such a function over one range is what it makes of the cells of the range. -/
theorem eval_call_range {ctx : Context} {name corner opposite : String} {r : RangeAddress}
    (hf : f.onCells? = some g) (hname : Function.ofName? name = some f)
    (h : RangeAddress.parseCorners corner opposite = .ok r) (hstart : ctx.table.contains r.start) :
    eval ctx (.call name [.range corner opposite]) = .ofExcept (g (ctx.table.rangeValues r)) := by
  have haccepts : f.arity.accepts [Expr.range corner opposite].length := by
    cases f with
    | aggregate a => rfl
    | and => rfl
    | or => rfl
    | _ => cases hf
  have hcells : Argument.allCells ctx [.range corner opposite] = .ok (ctx.table.rangeValues r) := by
    rw [Argument.allCells, List.mapM_cons, List.mapM_nil, Argument.cells, Context.range_eq_ok.mpr ⟨h, hstart⟩]
    simp [bind, Except.bind, pure, Except.pure, Except.map]
  rw [eval_call hname haccepts, applyFunction_of_onCells hf, evalArguments, evalArguments,
    Expr.asArgument, hcells]
  rfl

/-- Over a range that starts in a table, an aggregate or a connective has the value that it has over
all cells of the rectangle, row by row, where those outside the table are missing. -/
theorem eval_range_padded {t : Table} {s : String} {r : RangeAddress} (h : t.resolveRange s = .ok r)
    (hf : f.onCells? = some g) :
    (t.paddedValues r).length = r.height * r.width ∧ g (t.rangeValues r) = g (t.paddedValues r) ∧
    ∀ name corner opposite row, Function.ofName? name = some f →
      RangeAddress.parseCorners corner opposite = .ok r →
      eval ⟨t, row⟩ (.call name [.range corner opposite]) = .ofExcept (g (t.paddedValues r)) := by
  obtain ⟨hstart, hcovers⟩ := Table.of_resolveRange_eq_ok h
  have hpadded : g (t.rangeValues r) = g (t.paddedValues r) := by
    rw [← onCells_filter hf, ← Table.filter_paddedValues hstart hcovers, onCells_filter hf]
  refine ⟨t.length_paddedValues hcovers, hpadded, fun name corner opposite row hname hparse => ?_⟩
  rw [eval_call_range hf hname hparse hstart, hpadded]

def scores : Table :=
  ⟨[⟨"home", .number, [.number 3.0, .missing]⟩, ⟨"away", .mixed, [.text "void", .number 5.0]⟩], 2⟩

theorem eval_scores_padded :
    (scores.resolveRange "C9:A2" = .ok ⟨⟨1, 0⟩, ⟨8, 2⟩⟩ ∧
      Function.and.onCells? = some (judge (·.all id)) ∧ Function.ofName? "and" = some .and ∧
      RangeAddress.parseCorners "A9" "C2" = .ok ⟨⟨1, 0⟩, ⟨8, 2⟩⟩) ∧
    (scores.paddedValues ⟨⟨1, 0⟩, ⟨8, 2⟩⟩).length = 8 * 3 ∧
    eval ⟨scores, none⟩ (.call "and" [.range "A9" "C2"]) =
      .ofExcept (judge (·.all id) (scores.paddedValues ⟨⟨1, 0⟩, ⟨8, 2⟩⟩)) := by
  have hrange : scores.resolveRange "C9:A2" = .ok ⟨⟨1, 0⟩, ⟨8, 2⟩⟩ := by decide +kernel
  have hcorners : RangeAddress.parseCorners "A9" "C2" = .ok ⟨⟨1, 0⟩, ⟨8, 2⟩⟩ := by decide +kernel
  have hname : Function.ofName? "and" = some .and := by decide +kernel
  obtain ⟨hlength, -, hvalue⟩ := eval_range_padded hrange (f := .and) rfl
  exact ⟨⟨hrange, rfl, hname, hcorners⟩, hlength, hvalue _ _ _ none hname hcorners⟩

end Formula

end Tabular
