import Tabular.Proofs.Formula.Alike
import Tabular.Proofs.Table.Range

/-!
# What a formula reads

The value of an expression depends on the size of the table, on the cells that its references name
and on the row it is meant for, if a call asks for that. Of a conditional, only the condition and
the branch that it selects count.
-/
namespace Tabular

namespace Table

structure SameSize (t u : Table) : Prop where
  rows : t.rowCount = u.rowCount
  columns : t.columnCount = u.columnCount

variable {t u : Table}

namespace SameSize

theorem contains (h : SameSize t u) : t.contains = u.contains := by
  funext a
  rw [Table.contains, Table.contains, h.rows, h.columns]

theorem resolveCell (h : SameSize t u) : t.resolveCell = u.resolveCell := by
  funext s
  rw [Table.resolveCell, Table.resolveCell, h.contains, h.rows, h.columns]

theorem checkRange (h : SameSize t u) : t.checkRange = u.checkRange := by
  funext r
  rw [Table.checkRange, Table.checkRange, h.contains, h.rows, h.columns]

/-- A range in a table is read from its cells that are there. -/
theorem rangeRows (h : SameSize t u) {r : RangeAddress} (hstart : t.contains r.start)
    (hcells : ∀ a, r.Covers a → t.contains a → t.value a = u.value a) :
    t.rangeRows r = u.rangeRows r := by
  have hindices : t.rowIndices r = u.rowIndices r ∧ t.columnIndices r = u.columnIndices r := by
    rw [rowIndices, rowIndices, columnIndices, columnIndices, h.rows, h.columns]
    exact ⟨rfl, rfl⟩
  rw [Table.rangeRows, Table.rangeRows, ← hindices.1, ← hindices.2]
  refine List.map_congr_left fun i hi => List.map_congr_left fun j hj => ?_
  simp only [Table.contains, Bool.and_eq_true, decide_eq_true_eq] at hstart hcells
  simp only [rowIndices, columnIndices, indices, List.mem_range'_1] at hi hj
  refine hcells ⟨i, j⟩ ⟨⟨?_, ?_⟩, ?_, ?_⟩ ⟨?_, ?_⟩ <;> dsimp only <;> omega

end SameSize

end Table

namespace Formula

/-- The cells that evaluating an expression may read: those that its references name and those in
its ranges, but of a conditional only those of the condition and of the branch it selects. -/
inductive Reads (ctx : Context) : Expr → CellAddress → Prop
  | cell {address : String} {a : CellAddress} (h : CellAddress.parse address = .ok a) :
    Reads ctx (.cell address) a
  | range {corner opposite : String} {r : RangeAddress} {a : CellAddress}
    (h : RangeAddress.parseCorners corner opposite = .ok r) (ha : r.Covers a) :
    Reads ctx (.range corner opposite) a
  | left {op : BinaryOp} {left right : Expr} {a : CellAddress} (h : Reads ctx left a) :
    Reads ctx (.binary op left right) a
  | right {op : BinaryOp} {left right : Expr} {a : CellAddress} (h : Reads ctx right a) :
    Reads ctx (.binary op left right) a
  | operand {sign : Sign} {operand : Expr} {a : CellAddress} (h : Reads ctx operand a) :
    Reads ctx (.unary sign operand) a
  | argument {name : String} {arguments : List Expr} {e : Expr} {a : CellAddress}
    (hname : Function.ofName? name ≠ some .ifElse) (he : e ∈ arguments) (h : Reads ctx e a) :
    Reads ctx (.call name arguments) a
  | condition {name : String} {condition : Expr} {branches : List Expr} {a : CellAddress}
    (hname : Function.ofName? name = some .ifElse) (h : Reads ctx condition a) :
    Reads ctx (.call name (condition :: branches)) a
  | yes {name : String} {condition yes : Expr} {no : List Expr} {a : CellAddress}
    (hname : Function.ofName? name = some .ifElse) (hvalue : eval ctx condition = .boolean true)
    (h : Reads ctx yes a) : Reads ctx (.call name (condition :: yes :: no)) a
  | no {name : String} {condition yes no : Expr} {rest : List Expr} {a : CellAddress}
    (hname : Function.ofName? name = some .ifElse) (hvalue : eval ctx condition = .boolean false)
    (h : Reads ctx no a) : Reads ctx (.call name (condition :: yes :: no :: rest)) a

/-- An expression with a call that asks for the row of its own result. -/
inductive AsksOwnRow : Expr → Prop
  | call {name : String} (h : Function.ofName? name = some .row) : AsksOwnRow (.call name [])
  | left {op : BinaryOp} {left right : Expr} (h : AsksOwnRow left) : AsksOwnRow (.binary op left right)
  | right {op : BinaryOp} {left right : Expr} (h : AsksOwnRow right) :
    AsksOwnRow (.binary op left right)
  | operand {sign : Sign} {operand : Expr} (h : AsksOwnRow operand) : AsksOwnRow (.unary sign operand)
  | argument {name : String} {arguments : List Expr} {e : Expr} (he : e ∈ arguments)
    (h : AsksOwnRow e) : AsksOwnRow (.call name arguments)

variable {ctx other : Context}

namespace Context

theorem range_eq (hsize : ctx.table.SameSize other.table) (corner opposite : String) :
    ctx.range corner opposite = other.range corner opposite := by
  unfold Context.range
  rw [hsize.checkRange]

theorem cell_eq (hsize : ctx.table.SameSize other.table) {address : String}
    (h : ∀ a, CellAddress.parse address = .ok a → ctx.table.contains a →
      ctx.table.value a = other.table.value a) : ctx.cell address = other.cell address := by
  unfold Context.cell
  rw [← hsize.resolveCell]
  cases ha : ctx.table.resolveCell address with
  | ok a =>
    obtain ⟨hparse, hin⟩ := Table.resolveCell_eq_ok.mp ha
    exact congrArg Except.ok (h a hparse hin)
  | error fault => rfl

end Context

namespace Argument

/-- However a function reads the argument, it reads the same in both contexts. -/
structure Agrees (ctx other : Context) (a : Argument) : Prop where
  scalar : a.scalar ctx = a.scalar other
  cells : a.cells ctx = a.cells other
  rows : a.rows ctx = a.rows other

namespace Agrees

theorem alike {a : Argument} (h : a.Agrees ctx other) : Alike ctx other a a := ⟨h.scalar, h.cells⟩

theorem cell {address : String} (h : ctx.cell address = other.cell address) :
    (Argument.cell address).Agrees ctx other where
  scalar := by rw [Argument.scalar, Argument.scalar, h]
  cells := by rw [Argument.cells, Argument.cells, h]
  rows := by simp only [Argument.rows, Argument.scalar, h]

theorem range {corner opposite : String}
    (hrange : ctx.range corner opposite = other.range corner opposite)
    (h : ∀ r, ctx.range corner opposite = .ok r → ctx.table.value r.start = other.table.value r.start ∧
      ctx.table.rangeRows r = other.table.rangeRows r) :
    (Argument.range corner opposite).Agrees ctx other := by
  cases hr : ctx.range corner opposite with
  | ok r =>
    obtain ⟨hstart, hrows⟩ := h r hr
    rw [hr] at hrange
    constructor
    · simp only [Argument.scalar, hr, ← hrange, Except.map, hstart]
    · simp only [Argument.cells, hr, ← hrange, Except.map, Table.rangeValues, hrows]
    · simp only [Argument.rows, hr, ← hrange, Except.map, hrows]
  | error e =>
    rw [hr] at hrange
    constructor
    · simp only [Argument.scalar, hr, ← hrange, Except.map]
    · simp only [Argument.cells, hr, ← hrange, Except.map]
    · simp only [Argument.rows, hr, ← hrange, Except.map]

/-- References of an expression are read alike in tables that agree on what it may read. -/
theorem asArgument (hsize : ctx.table.SameSize other.table) {e : Expr}
    (h : ∀ a, Reads ctx e a → ctx.table.contains a → ctx.table.value a = other.table.value a)
    (v : Value) : (e.asArgument v).Agrees ctx other := by
  cases e with
  | cell address =>
    exact .cell (Context.cell_eq hsize fun a ha => h a (.cell ha))
  | range corner opposite =>
    refine .range (Context.range_eq hsize corner opposite) fun r hr => ?_
    obtain ⟨hparse, hstart⟩ := Context.range_eq_ok.mp hr
    exact ⟨h r.start (.range hparse (RangeAddress.covers_start hparse)) hstart,
      hsize.rangeRows hstart fun a ha => h a (.range hparse ha)⟩
  | _ => exact ⟨rfl, rfl, rfl⟩

end Agrees

end Argument

theorem eval_call_congr {name : String} {es : List Expr}
    (hsame : evalArguments ctx es = evalArguments other es)
    (h : ∀ a ∈ evalArguments ctx es, a.Agrees ctx other)
    (hrow : Function.ofName? name = some .row → es = [] → ctx.targetRow = other.targetRow) :
    eval ctx (.call name es) = eval other (.call name es) := by
  refine eval_call_of_alike ?_ (fun _ => ?_) fun hname => ?_
  · rw [← hsame]
    exact List.forall₂_same.mpr fun a ha => (h a ha).alike
  · rw [← hsame]
    exact Option.map_congr fun a ha => (h a (List.mem_of_getElem? ha)).rows
  · rw [← hsame]
    cases hes : evalArguments ctx es with
    | nil =>
      rw [evalArguments_eq_map, List.map_eq_nil_iff] at hes
      rw [applyFunction, applyFunction, hrow hname hes]
    | cons a rest => exact applyFunction_row_congr (by cases a <;> rfl) rest rest

/-- A conditional has the value of the branch that its condition selects. -/
theorem eval_ifElse {name : String} (hname : Function.ofName? name = some .ifElse)
    (condition yes : Expr) (no : List Expr) :
    eval ctx (.call name (condition :: yes :: no)) =
      if no.length ≤ 1 then match eval ctx condition with
        | .boolean true => eval ctx yes
        | .boolean false => (no.head?.map (eval ctx)).getD (.boolean false)
        | .error e => .error e
        | _ => .error .typeMismatch
      else .error .malformed := by
  have haccepts : (Function.arity .ifElse).accepts (evalArguments ctx (condition :: yes :: no)).length =
      decide (no.length ≤ 1) := by
    rw [evalArguments_eq_map, List.length_map, Bool.eq_iff_iff]
    simp only [List.length_cons, Function.arity, Arity.accepts, Bool.and_eq_true, decide_eq_true_eq]
    omega
  have hno : (evalArguments ctx no).head?.map (·.scalar ctx) = no.head?.map (eval ctx) := by
    rw [evalArguments_eq_map]
    cases no with
    | nil => rw [List.map_nil, List.head?_nil, List.head?_nil, Option.map_none, Option.map_none]
    | cons e _ => exact congrArg some (scalar_asArgument ctx e)
  rw [eval, applyCall, hname]
  simp only [haccepts, decide_eq_true_eq]
  split
  · simp only [evalArguments, applyFunction, scalar_asArgument, hno]
    cases eval ctx condition with
    | boolean b => cases b <;> rfl
    | _ => rfl
  · rfl

theorem eval_ifElse_few {name : String} (hname : Function.ofName? name = some .ifElse)
    {es : List Expr} (h : es.length < 2) : eval ctx (.call name es) = .error .malformed := by
  have hrefuses : ¬(Function.arity .ifElse).accepts (evalArguments ctx es).length := by
    rw [evalArguments_eq_map, List.length_map]
    simp only [Function.arity, Arity.accepts, Bool.and_eq_true, decide_eq_true_eq]
    omega
  rw [eval, applyCall, hname]
  exact if_neg hrefuses

/-- A conditional has one value in two contexts in which its condition has, and so has the branch that
this selects. -/
theorem eval_ifElse_congr {name : String} (hname : Function.ofName? name = some .ifElse)
    {condition yes : Expr} {no : List Expr} (hcondition : eval ctx condition = eval other condition)
    (hyes : eval ctx condition = .boolean true → eval ctx yes = eval other yes)
    (hno : eval ctx condition = .boolean false → ∀ e ∈ no.head?, eval ctx e = eval other e) :
    eval ctx (.call name (condition :: yes :: no)) =
      eval other (.call name (condition :: yes :: no)) := by
  rw [eval_ifElse hname, eval_ifElse hname, ← hcondition]
  split
  · split
    next hvalue => exact hyes hvalue
    next hvalue =>
      cases no with
      | nil => rfl
      | cons e rest => exact hno hvalue e rfl
    next => rfl
    next => rfl
  · rfl

/-- Two tables of one size in which an expression may read the same cells give it one value. So do
two target rows, unless a call in the expression asks for the row. -/
theorem eval_eq_of_reads {t u : Table} {r s : Option Nat} {e : Expr}
    (hrows : t.rowCount = u.rowCount) (hcolumns : t.columnCount = u.columnCount)
    (hcells : ∀ a, Reads ⟨t, r⟩ e a → t.contains a → t.value a = u.value a)
    (hrow : r = s ∨ ¬AsksOwnRow e) : eval ⟨t, r⟩ e = eval ⟨u, s⟩ e := by
  have hsize : t.SameSize u := ⟨hrows, hcolumns⟩
  induction e with
  | number n => rw [eval, eval]
  | text s => rw [eval, eval]
  | boolean b => rw [eval, eval]
  | cell address =>
    have h : ((Expr.cell address).asArgument .missing).Agrees ⟨t, r⟩ ⟨u, s⟩ :=
      .asArgument hsize hcells _
    rw [Expr.asArgument] at h
    rw [eval, eval, h.scalar]
  | range corner opposite =>
    have h : ((Expr.range corner opposite).asArgument .missing).Agrees ⟨t, r⟩ ⟨u, s⟩ :=
      .asArgument hsize hcells _
    rw [Expr.asArgument] at h
    rw [eval, eval, h.scalar]
  | binary op left right ihleft ihright =>
    rw [eval, eval, ihleft (fun a h => hcells a (.left h)) (hrow.imp_right (mt .left)),
      ihright (fun a h => hcells a (.right h)) (hrow.imp_right (mt .right))]
  | unary sign operand ih =>
    rw [eval, eval, ih (fun a h => hcells a (.operand h)) (hrow.imp_right (mt .operand))]
  | call name arguments ih =>
    have hrows (e : Expr) (he : e ∈ arguments) : r = s ∨ ¬AsksOwnRow e :=
      hrow.imp_right (mt (.argument he))
    by_cases hname : Function.ofName? name = some .ifElse
    · obtain _ | ⟨condition, _ | ⟨yes, no⟩⟩ := arguments
      · rw [eval_ifElse_few hname (by simp), eval_ifElse_few hname (by simp)]
      · rw [eval_ifElse_few hname (by simp), eval_ifElse_few hname (by simp)]
      · refine eval_ifElse_congr hname ?_ (fun hvalue => ?_) fun hvalue e he => ?_
        · exact ih condition (by simp) (fun a h => hcells a (.condition hname h)) (hrows _ (by simp))
        · exact ih yes (by simp) (fun a h => hcells a (.yes hname hvalue h)) (hrows _ (by simp))
        · obtain ⟨rest, rfl⟩ := List.head?_eq_some_iff.mp he
          exact ih e (by simp) (fun a h => hcells a (.no hname hvalue h)) (hrows _ (by simp))
    · have hvalues (e : Expr) (he : e ∈ arguments) : eval ⟨t, r⟩ e = eval ⟨u, s⟩ e :=
        ih e he (fun a h => hcells a (.argument hname he h)) (hrows e he)
      refine eval_call_congr ?_ ?_ ?_
      · rw [evalArguments_eq_map, evalArguments_eq_map]
        exact List.map_congr_left fun e he => by rw [hvalues e he]
      · exact forall_mem_evalArguments.mpr fun e he =>
          .asArgument hsize (fun a h => hcells a (.argument hname he h)) _
      · rintro hname rfl
        exact hrow.resolve_right (not_not_intro (.call hname))

/-- The sum of the prices in the second column, if the first cell is above one. -/
def totalPrice : Expr :=
  .call "IF" [.binary (.compare .gt) (.cell "A1") (.number 1.0), .call "SUM" [.range "B1" "B9"],
    .cell "C1"]

def orders : Table :=
  ⟨[⟨"amount", .number, [.number 2.0, .number 4.0]⟩, ⟨"price", .mixed, [.number 5.0, .text "free"]⟩,
    ⟨"note", .text, [.text "old", .missing]⟩], 2⟩

/-- The same orders as far as `totalPrice` can tell. -/
def otherOrders : Table :=
  ⟨[⟨"a", .mixed, [.number 2.0, .error .invalidRef]⟩, ⟨"b", .mixed, [.number 5.0, .text "free"]⟩,
    ⟨"c", .boolean, [.boolean true, .missing]⟩], 2⟩

theorem reads_totalPrice {a : CellAddress} (h : Reads ⟨orders, none⟩ totalPrice a) :
    a = ⟨0, 0⟩ ∨ a.column = 1 := by
  have hif : Function.ofName? "IF" = some .ifElse := by decide +kernel
  cases h with
  | argument hname => exact absurd hif hname
  | condition _ h =>
    cases h with
    | left h =>
      obtain ⟨h⟩ := h
      exact .inl (Except.ok.inj (h.symm.trans (by decide +kernel)))
    | right h => cases h
  | yes _ _ h =>
    cases h with
    | argument _ he h =>
      obtain rfl := List.mem_singleton.mp he
      obtain _ | ⟨h, ha⟩ := h
      have hr : RangeAddress.parseCorners "B1" "B9" = .ok ⟨⟨0, 1⟩, ⟨8, 1⟩⟩ := by decide +kernel
      obtain rfl := Except.ok.inj (hr.symm.trans h)
      exact .inr (Nat.le_antisymm ha.2.2 ha.2.1)
    | condition hname => exact absurd hname (by decide +kernel)
  | no _ hvalue h =>
    have htrue : eval ⟨orders, none⟩ (.binary (.compare .gt) (.cell "A1") (.number 1.0)) =
        .boolean true := by decide +kernel
    rw [htrue] at hvalue
    cases hvalue

theorem not_asksOwnRow_totalPrice : ¬AsksOwnRow totalPrice := by
  rintro (_ | _ | _ | _ | ⟨he, h⟩)
  simp only [List.mem_cons, List.not_mem_nil, or_false] at he
  obtain rfl | rfl | rfl := he
  · rcases h with _ | ⟨⟨⟩⟩ | ⟨⟨⟩⟩
  · rcases h with _ | _ | _ | _ | ⟨he, h⟩
    obtain rfl := List.mem_singleton.mp he
    cases h
  · cases h

theorem eval_totalPrice_eq :
    (orders.rowCount = otherOrders.rowCount ∧ orders.columnCount = otherOrders.columnCount) ∧
    (∀ a, Reads ⟨orders, none⟩ totalPrice a → orders.contains a →
      orders.value a = otherOrders.value a) ∧
    (none = some 1 ∨ ¬AsksOwnRow totalPrice) ∧
    eval ⟨orders, none⟩ totalPrice = eval ⟨otherOrders, some 1⟩ totalPrice := by
  have hcells (a : CellAddress) (h : Reads ⟨orders, none⟩ totalPrice a) (hin : orders.contains a) :
      orders.value a = otherOrders.value a := by
    obtain rfl | hcolumn := reads_totalPrice h
    · rfl
    · obtain ⟨row, column⟩ := a
      obtain rfl : column = 1 := hcolumn
      have hrow : row < 2 := of_decide_eq_true (Bool.and_eq_true_iff.mp hin).1
      obtain rfl | rfl : row = 0 ∨ row = 1 := by omega
      · rfl
      · rfl
  exact ⟨⟨rfl, rfl⟩, hcells, .inr not_asksOwnRow_totalPrice,
    eval_eq_of_reads rfl rfl hcells (.inr not_asksOwnRow_totalPrice)⟩

end Formula

end Tabular
