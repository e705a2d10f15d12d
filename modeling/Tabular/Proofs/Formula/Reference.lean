import Tabular.Proofs.Formula.Alike
import Tabular.Proofs.Table.Range

/-!
# Other ways to write a reference

A cell can be written as the range of that one cell, and a range from any of its four corners. Both
leave the value of an expression alone with one exception each: the table of a lookup is an error if
it is a cell that holds one, but a range may hold errors; and ROW looks at the corner that comes
first.
-/
namespace Tabular.Formula

variable {ctx : Context}

/-- An address names a cell in the table and the range of that cell, or it is a bad reference either
way. -/
theorem Context.range_self_cases (ctx : Context) (address : String) :
    (∃ a, ctx.table.contains a ∧ ctx.cell address = .ok (ctx.table.value a) ∧
      ctx.range address address = .ok ⟨a, a⟩) ∨
    (ctx.cell address = .error .invalidRef ∧ ctx.range address address = .error .invalidRef) := by
  unfold Context.cell Context.range Table.resolveCell RangeAddress.parseCorners
  cases CellAddress.parse address with
  | error fault => exact .inr ⟨rfl, rfl⟩
  | ok a =>
    have hself : RangeAddress.between a a = ⟨a, a⟩ := by
      simp only [RangeAddress.between, Nat.min_self, Nat.max_self]
    simp only [bind, Except.bind, pure, Except.pure, hself, Table.checkRange]
    by_cases ha : ctx.table.contains a
    · simp only [ha, if_true]
      exact .inl ⟨a, ha, rfl, rfl⟩
    · simp only [ha, throw, throwThe, MonadExceptOf.throw]
      exact .inr ⟨rfl, rfl⟩

namespace Argument

theorem alike_range_self (ctx : Context) (address : String) :
    Alike ctx ctx (.range address address) (.cell address) := by
  obtain ⟨a, ha, hcell, hrange⟩ | ⟨hcell, hrange⟩ := ctx.range_self_cases address
  · constructor
    · rw [scalar, scalar, hcell, hrange]
      rfl
    · rw [cells, cells, hcell, hrange, Except.map, Except.map, Table.rangeValues,
        Table.rangeRows_single ha]
      rfl
  · constructor
    · rw [scalar, scalar, hcell, hrange]
      rfl
    · rw [cells, cells, hcell, hrange]
      rfl

/-- Unless it holds an error, a cell is its own range also when it is read in rows. -/
theorem rows_range_self {address : String} (h : ∀ e, ctx.cell address ≠ .ok (.error e)) :
    (Argument.range address address).rows ctx = (Argument.cell address).rows ctx := by
  obtain ⟨a, ha, hcell, hrange⟩ | ⟨hcell, hrange⟩ := ctx.range_self_cases address
  · simp only [rows, scalar, hcell, hrange, Except.map, Table.rangeRows_single ha, Value.ofExcept]
    cases hv : ctx.table.value a with
    | error e => exact absurd (hv ▸ hcell) (h e)
    | _ => rfl
  · simp only [rows, scalar, hcell, hrange, Except.map, Value.ofExcept, present]

end Argument

theorem eval_call_range_self {name address : String} {before after : List Expr}
    (h : Function.ofName? name = some .vlookup → before.length = 1 →
      ∀ e, ctx.cell address ≠ .ok (.error e)) :
    eval ctx (.call name (before ++ .range address address :: after)) =
      eval ctx (.call name (before ++ .cell address :: after)) := by
  have hsame (as : List Argument) : List.Forall₂ (Argument.Alike ctx ctx) as as :=
    List.forall₂_same.mpr fun a _ => .refl a
  have hlength : (evalArguments ctx before).length = before.length := by
    rw [evalArguments_eq_map, List.length_map]
  rw [← hlength] at h
  refine eval_call_of_alike ?_ (fun hname => ?_) fun hname => ?_
  all_goals
    rw [evalArguments_append_cons, evalArguments_append_cons, Expr.asArgument, Expr.asArgument]
  · exact List.rel_append (hsame _) (.cons (Argument.alike_range_self ctx address) (hsame _))
  · generalize evalArguments ctx before = front at h ⊢
    obtain _ | ⟨a, _ | ⟨b, rest⟩⟩ := front
    · rfl
    · exact congrArg some (Argument.rows_range_self (h hname rfl))
    · rfl
  · cases evalArguments ctx before with
    | nil =>
      rw [List.nil_append, List.nil_append]
      exact applyFunction_row_congr rfl (evalArguments ctx after) (evalArguments ctx after)
    | cons b rest => exact applyFunction_row_congr rfl _ _

/-- An error as the only key of a lookup is the key of nothing. -/
theorem findRow?_error (approximate : Bool) (needle : Value) (e : CellError) :
    findRow? approximate needle [[.error e]] = none := by
  have hholds (op : Comparison) : (Value.error e).holds op needle = false := rfl
  cases approximate <;> simp [findRow?, hholds]

/-- An error in the cell that a lookup searches is the result, but as a range the cell is one row that
nothing matches. -/
theorem eval_lookup_error_cell {name address : String} {needle column : Expr} {e : CellError} {n : Double}
    (hname : Function.ofName? name = some .vlookup) (hcell : ctx.cell address = .ok (.error e))
    (hneedle : (eval ctx needle).isError = false) (hcolumn : (eval ctx column).operand = .ok n)
    (hn : ¬n.toFloat < 1.0) :
    eval ctx (.call name [needle, .cell address, column]) = .error e ∧
    eval ctx (.call name [needle, .range address address, column]) = .error .invalidRef := by
  have hfound := (required_asArgument needle).trans (present_eq_ok hneedle)
  have hnumber : (column.asArgument (eval ctx column)).number ctx = .ok n := by
    have hvalue : (eval ctx column).isError = false := by
      cases hv : eval ctx column with
      | error e =>
        rw [hv] at hcolumn
        cases hcolumn
      | _ => rfl
    rw [Argument.number, required_asArgument, present_eq_ok hvalue]
    exact hcolumn
  obtain ⟨a, ha, hvalue, hrange⟩ | ⟨hbad, -⟩ := ctx.range_self_cases address
  · have hcellRows : (Argument.cell address).rows ctx = .error e := by
      simp only [Argument.rows, Argument.scalar, hcell, Value.ofExcept, present, Except.map]
    have hrangeRows : (Argument.range address address).rows ctx = .ok [[.error e]] := by
      rw [Argument.rows, hrange, Except.map, Table.rangeRows_single ha,
        Except.ok.inj (hvalue.symm.trans hcell)]
    rw [eval_call hname rfl, eval_call hname rfl]
    simp only [evalArguments]
    generalize needle.asArgument (eval ctx needle) = x at *
    generalize column.asArgument (eval ctx column) = c at *
    simp only [Expr.asArgument, applyFunction, hfound, hnumber, hcellRows, hrangeRows, bind, Except.bind,
      if_neg hn, pure, Except.pure, findRow?_error]
    exact ⟨rfl, rfl⟩
  · rw [hbad] at hcell
    cases hcell

/-- A cell reference among the arguments of a call may be written as the range of that one cell,
whatever the cell holds and whether or not it is in the table. Only where a lookup searches the cell
and it holds an error do the two differ. -/
theorem eval_call_cell_as_range (ctx : Context) (name address : String) (before after : List Expr) :
    ((Function.ofName? name = some .vlookup → before.length = 1 →
        ∀ e, ctx.cell address ≠ .ok (.error e)) →
      eval ctx (.call name (before ++ .range address address :: after)) =
        eval ctx (.call name (before ++ .cell address :: after))) ∧
    ∀ needle column e n, Function.ofName? name = some .vlookup → ctx.cell address = .ok (.error e) →
      (eval ctx needle).isError = false → (eval ctx column).operand = .ok n → ¬n.toFloat < 1.0 →
      eval ctx (.call name [needle, .cell address, column]) = .error e ∧
      eval ctx (.call name [needle, .range address address, column]) = .error .invalidRef :=
  ⟨eval_call_range_self, fun _ _ _ _ hname hcell hneedle hcolumn hn =>
    eval_lookup_error_cell hname hcell hneedle hcolumn hn⟩

/-- One column with an error, a number and a blank. -/
def readings : Table := ⟨[⟨"reading", .number, [.error .divByZero, .number 7.0, .missing]⟩], 3⟩

theorem eval_calls_of_readings :
    (Function.ofName? "COUNTIF" ≠ some .vlookup ∧
      eval ⟨readings, none⟩ (.call "COUNTIF" [.range "A1" "A1", .text "<>x"]) =
        eval ⟨readings, none⟩ (.call "COUNTIF" [.cell "A1", .text "<>x"])) ∧
    (Function.ofName? "VLOOKUP" = some .vlookup ∧
      Context.cell ⟨readings, none⟩ "A1" = .ok (.error .divByZero) ∧
      eval ⟨readings, none⟩ (.call "VLOOKUP" [.number 7.0, .cell "A1", .number 1.0]) =
        .error .divByZero) := by
  have hcount : Function.ofName? "COUNTIF" ≠ some .vlookup := by decide +kernel
  have hlookup : Function.ofName? "VLOOKUP" = some .vlookup := by decide +kernel
  have hcell : Context.cell ⟨readings, none⟩ "A1" = .ok (.error .divByZero) := by decide +kernel
  have hcolumn : (eval ⟨readings, none⟩ (.number 1.0)).operand = .ok 1.0 := rfl
  refine ⟨⟨hcount, ?_⟩, hlookup, hcell, ?_⟩
  · exact (eval_call_cell_as_range _ "COUNTIF" "A1" [] [.text "<>x"]).1 fun hname => absurd hname hcount
  · exact ((eval_call_cell_as_range _ "VLOOKUP" "A1" [] []).2 _ _ _ _ hlookup hcell rfl hcolumn
      (by decide +kernel)).1

/-- The lookup fails with the error of the cell, but finds no row in the range of the same cell. -/
theorem eval_lookup_error_cell_ne :
    eval ⟨readings, none⟩ (.call "VLOOKUP" [.number 7.0, .cell "A1", .number 1.0]) =
      .error .divByZero ∧
    eval ⟨readings, none⟩ (.call "VLOOKUP" [.number 7.0, .range "A1" "A1", .number 1.0]) =
      .error .invalidRef := by
  decide +kernel

/-- The second expression has ranges of the first written from other corners of their rectangles. -/
inductive Redrawn : Expr → Expr → Prop
  | refl (e : Expr) : Redrawn e e
  | range {corner opposite corner' opposite' : String} {r : RangeAddress}
    (h : RangeAddress.parseCorners corner opposite = .ok r)
    (h' : RangeAddress.parseCorners corner' opposite' = .ok r) :
    Redrawn (.range corner opposite) (.range corner' opposite')
  | binary {op : BinaryOp} {left right left' right' : Expr} (hleft : Redrawn left left')
    (hright : Redrawn right right') : Redrawn (.binary op left right) (.binary op left' right')
  | unary {sign : Sign} {operand operand' : Expr} (h : Redrawn operand operand') :
    Redrawn (.unary sign operand) (.unary sign operand')
  | call {name : String} {arguments arguments' : List Expr}
    (hlength : arguments.length = arguments'.length)
    (h : ∀ p ∈ arguments.zip arguments', Redrawn p.1 p.2) :
    Redrawn (.call name arguments) (.call name arguments')

/-- Somewhere both expressions call ROW on a range, and the corners that come first are in different
rows. -/
inductive MovesRow : Expr → Expr → Prop
  | row {name corner opposite corner' opposite' : String} {rest rest' : List Expr} {a a' : CellAddress}
    (hname : Function.ofName? name = some .row) (ha : CellAddress.parse corner = .ok a)
    (ha' : CellAddress.parse corner' = .ok a') (hne : a.row ≠ a'.row) :
    MovesRow (.call name (.range corner opposite :: rest))
      (.call name (.range corner' opposite' :: rest'))
  | left {op : BinaryOp} {left right left' right' : Expr} (h : MovesRow left left') :
    MovesRow (.binary op left right) (.binary op left' right')
  | right {op : BinaryOp} {left right left' right' : Expr} (h : MovesRow right right') :
    MovesRow (.binary op left right) (.binary op left' right')
  | operand {sign : Sign} {operand operand' : Expr} (h : MovesRow operand operand') :
    MovesRow (.unary sign operand) (.unary sign operand')
  | argument {name : String} {arguments arguments' : List Expr} {p : Expr × Expr}
    (hp : p ∈ arguments.zip arguments') (h : MovesRow p.1 p.2) :
    MovesRow (.call name arguments) (.call name arguments')

theorem Context.range_congr (ctx : Context) {corner opposite corner' opposite' : String}
    (h : RangeAddress.parseCorners corner opposite = RangeAddress.parseCorners corner' opposite') :
    ctx.range corner opposite = ctx.range corner' opposite' := by
  unfold Context.range
  rw [h]

namespace Redrawn

variable {e e' : Expr}

/-- As arguments, a range and the same range redrawn are read alike, also in rows. -/
theorem alike (h : Redrawn e e') (hvalue : eval ctx e = eval ctx e') : Expr.Alike ctx e e' := by
  cases h with
  | refl => exact ⟨.refl _, rfl⟩
  | range h h' =>
    have hrange := ctx.range_congr (h.trans h'.symm)
    refine ⟨⟨?_, ?_⟩, ?_⟩
    · rw [Expr.asArgument, Expr.asArgument, Argument.scalar, Argument.scalar, hrange]
    · rw [Expr.asArgument, Expr.asArgument, Argument.cells, Argument.cells, hrange]
    · rw [Expr.asArgument, Expr.asArgument, Argument.rows, Argument.rows, hrange]
  | _ =>
    have hsame := congrArg Argument.computed hvalue
    exact ⟨⟨congrArg (Argument.scalar ctx) hsame, congrArg (Argument.cells ctx) hsame⟩,
      congrArg (Argument.rows ctx) hsame⟩

theorem parse_corner {corner opposite : String} {r : RangeAddress}
    (h : RangeAddress.parseCorners corner opposite = .ok r) :
    ∃ a, CellAddress.parse corner = .ok a := by
  obtain ⟨a, ha, -⟩ := bind_eq_ok.mp h
  exact ⟨a, ha⟩

theorem row_eq {name : String} {rest rest' : List Expr} (h : Redrawn e e')
    (hname : Function.ofName? name = some .row)
    (hrow : ¬MovesRow (.call name (e :: rest)) (.call name (e' :: rest'))) :
    applyFunction ctx .row [e.asArgument (eval ctx e)] =
      applyFunction ctx .row [e'.asArgument (eval ctx e')] := by
  cases h with
  | refl => rfl
  | range h h' =>
    obtain ⟨a, ha⟩ := parse_corner h
    obtain ⟨a', ha'⟩ := parse_corner h'
    have hsame : a.row = a'.row := by
      by_contra hne
      exact hrow (.row hname ha ha' hne)
    simp only [Expr.asArgument, applyFunction, applyFunction.rowOf, ha, ha', hsame]
  | _ => rfl

theorem eval_eq (h : Redrawn e e') (hrow : ¬MovesRow e e') : eval ctx e = eval ctx e' := by
  induction h with
  | refl => rfl
  | range h h' =>
    rw [eval, eval, Argument.scalar, Argument.scalar, ctx.range_congr (h.trans h'.symm)]
  | binary hleft hright ihleft ihright =>
    rw [eval, eval, ihleft (mt .left hrow), ihright (mt .right hrow)]
  | unary h ih => rw [eval, eval, ih (mt .operand hrow)]
  | @call name arguments arguments' hlength h ih =>
    refine eval_call_of_forall₂ (List.forall₂_iff_zip.mpr ⟨hlength, fun hp => ?_⟩) fun hname e he e' he' => ?_
    · exact (h _ hp).alike (ih _ hp (mt (.argument hp) hrow))
    · obtain ⟨rest, rfl⟩ := List.head?_eq_some_iff.mp he
      obtain ⟨rest', rfl⟩ := List.head?_eq_some_iff.mp he'
      exact (h (e, e') List.mem_cons_self).row_eq hname hrow

end Redrawn

/-- Writing ranges from other corners leaves the value of an expression alone, unless a call of ROW is
on a range of which the corner that comes first moves to another row: that row is its value. -/
theorem eval_redrawn (ctx : Context) :
    (∀ e e', Redrawn e e' → ¬MovesRow e e' → eval ctx e = eval ctx e') ∧
    ∀ name corner opposite a, Function.ofName? name = some .row → CellAddress.parse corner = .ok a →
      eval ctx (.call name [.range corner opposite]) = .ofNat (a.row + 1) := by
  refine ⟨fun e e' h hrow => h.eval_eq hrow, fun name corner opposite a hname ha => ?_⟩
  rw [eval_call hname rfl, evalArguments, evalArguments, Expr.asArgument]
  simp only [applyFunction, applyFunction.rowOf, ha, Value.ofExcept]

/-- A sum over a square of cells, less the cell in its corner. -/
def surplus : Expr := .binary .subtract (.call "SUM" [.range "A1" "B2"]) (.unary .plus (.range "A1" "B2"))

/-- `surplus` with the square written from its other corners. -/
def surplusRedrawn : Expr :=
  .binary .subtract (.call "SUM" [.range "B2" "A1"]) (.unary .plus (.range "A2" "B1"))

theorem redrawn_surplus : Redrawn surplus surplusRedrawn := by
  have hsquare : RangeAddress.parseCorners "A1" "B2" = .ok ⟨⟨0, 0⟩, ⟨1, 1⟩⟩ := by decide +kernel
  refine .binary (.call rfl fun p hp => ?_) (.unary (.range hsquare (by decide +kernel)))
  obtain rfl := List.mem_singleton.mp hp
  exact .range hsquare (by decide +kernel)

theorem not_movesRow_surplus : ¬MovesRow surplus surplusRedrawn := by
  have hsum : Function.ofName? "SUM" ≠ some .row := by decide +kernel
  rintro (_ | h | h)
  · rcases h with hname | _ | _ | _ | ⟨hp, h⟩
    · exact hsum hname
    · obtain rfl := List.mem_singleton.mp hp
      cases h
  · obtain _ | _ | _ | h := h
    cases h

theorem eval_surplus_redrawn :
    (Redrawn surplus surplusRedrawn ∧ ¬MovesRow surplus surplusRedrawn ∧
      eval ⟨readings, some 4⟩ surplus = eval ⟨readings, some 4⟩ surplusRedrawn) ∧
    Function.ofName? "row" = some .row ∧ CellAddress.parse "c9" = .ok ⟨8, 2⟩ ∧
      eval ⟨readings, some 4⟩ (.call "row" [.range "c9" "A1"]) = .ofNat 9 := by
  have hname : Function.ofName? "row" = some .row := by decide +kernel
  have hcorner : CellAddress.parse "c9" = .ok ⟨8, 2⟩ := by decide +kernel
  obtain ⟨hredrawn, hrow⟩ := eval_redrawn ⟨readings, some 4⟩
  exact ⟨⟨redrawn_surplus, not_movesRow_surplus, hredrawn _ _ redrawn_surplus not_movesRow_surplus⟩,
    hname, hcorner, hrow "row" "c9" "A1" _ hname hcorner⟩

/-- ROW of a range is another row once the range is written from below. -/
theorem eval_row_of_redrawn_ne :
    Redrawn (.call "ROW" [.range "A1" "A2"]) (.call "ROW" [.range "A2" "A1"]) ∧
    eval ⟨readings, none⟩ (.call "ROW" [.range "A1" "A2"]) = .number 1.0 ∧
    eval ⟨readings, none⟩ (.call "ROW" [.range "A2" "A1"]) = .number 2.0 := by
  have hcolumn : RangeAddress.parseCorners "A1" "A2" = .ok ⟨⟨0, 0⟩, ⟨1, 0⟩⟩ := by decide +kernel
  refine ⟨.call rfl fun p hp => ?_, by decide +kernel, by decide +kernel⟩
  obtain rfl := List.mem_singleton.mp hp
  exact .range hcolumn (by decide +kernel)

end Tabular.Formula
