import Tabular.Proofs.Formula.Expr
import Tabular.Proofs.Formula.Literal
import Tabular.Proofs.Outcome

/-!
# What evaluation keeps

Evaluation makes finite numbers, texts, truth values and the three errors of operators and functions.
Besides, it passes on cells and literals, changes their signs and hands on their errors, and calls that
are not well formed have errors of their own. A property of values that all of these keep is one of
every result.
-/
namespace Tabular

/-- The values of a property are closed under what evaluation does to single values. Errors have the
property unless they are bad, and operators and functions have no bad errors of their own. -/
structure Value.Closed (bad : CellError → Prop) (P : Value → Prop) : Prop where
  finite : ∀ x : Double, x.isFinite = true → P (.number x)
  neg : ∀ x : Double, P (.number x) → P (.number (-x))
  abs : ∀ x : Double, P (.number x) → P (.number x.abs)
  text : ∀ s, P (.text s)
  boolean : ∀ b, P (.boolean b)
  missing : P .missing
  error : ∀ e, P (.error e) ↔ ¬bad e
  divByZero : ¬bad .divByZero
  invalidRef : ¬bad .invalidRef
  typeMismatch : ¬bad .typeMismatch

theorem Number.lesser_eq_or (x y : Double) : lesser x y = x ∨ lesser x y = y := by
  unfold lesser
  split
  · exact .inr rfl
  split
  · exact .inr rfl
  · exact .inl rfl

theorem Number.greater_eq_or (x y : Double) : greater x y = x ∨ greater x y = y := by
  unfold greater
  split
  · exact .inr rfl
  split
  · exact .inr rfl
  · exact .inl rfl

/-- All cells of the table have a property. -/
def Table.All (P : Value → Prop) (t : Table) : Prop := ∀ c ∈ t.columns, ∀ v ∈ c.values, P v

section
variable {bad : CellError → Prop} {P : Value → Prop}

namespace Value.Closed

variable (hP : Closed bad P)
include hP

theorem ofFloat (x : Float) : P (.ofFloat x) := by
  unfold Value.ofFloat
  split
  next h => exact hP.finite x ((Double.isFinite_ofFloat x).trans h)
  next => exact (hP.error _).mpr hP.typeMismatch

theorem ofNat (n : Nat) : P (.ofNat n) :=
  hP.finite _ ((Double.isFinite_ofFloat _).trans (Number.isFinite_toFloat _))

theorem ofExcept {x : Except CellError Value} (h : Yields bad P x) : P (.ofExcept x) := by
  cases h with
  | ok h => exact h
  | error h => exact (hP.error _).mpr h

theorem operand {v : Value} (h : P v) : Yields bad (fun x => P (.number x)) v.operand := by
  cases v with
  | number x => exact .ok h
  | missing => exact .ok (hP.finite _ rfl)
  | error e => exact .error ((hP.error e).mp h)
  | _ => exact .error hP.typeMismatch

theorem compare (op : Comparison) {left right : Value} (hleft : P left) (hright : P right) :
    P (left.compare op right) := by
  unfold Value.compare
  split
  · exact hleft
  · exact hright
  · split
    · exact hP.boolean _
    · exact hP.boolean _
    · exact hP.boolean _
    · exact (hP.error _).mpr hP.typeMismatch
    · exact (hP.error _).mpr hP.typeMismatch

theorem arithmetic (f : Float → Float → Float) {left right : Value} (hleft : P left) (hright : P right) :
    P (Formula.applyBinary.arithmetic f left right) :=
  hP.ofExcept ((hP.operand hleft).bind fun _ _ => (hP.operand hright).bind fun _ _ => .ok (hP.ofFloat _))

theorem applyBinary (op : Formula.BinaryOp) {left right : Value} (hleft : P left) (hright : P right) :
    P (Formula.applyBinary op left right) := by
  unfold Formula.applyBinary
  split
  · exact hleft
  · exact hright
  split
  · exact hP.compare _ hleft hright
  · exact hP.arithmetic _ hleft hright
  · exact hP.arithmetic _ hleft hright
  · exact hP.arithmetic _ hleft hright
  · split
    · split
      · exact (hP.error _).mpr hP.divByZero
      · exact hP.ofFloat _
    · exact (hP.error _).mpr hP.typeMismatch
  · split
    · split
      · exact (hP.error _).mpr hP.divByZero
      · exact hP.ofFloat _
    · exact (hP.error _).mpr hP.typeMismatch

theorem applySign (sign : Formula.Sign) {v : Value} (h : P v) : P (Formula.applySign sign v) := by
  refine hP.ofExcept ((hP.operand h).bind fun n hn => .ok ?_)
  cases sign with
  | minus => exact hP.neg n hn
  | plus => exact hn

theorem roundTo (x : Float) (places : Int) : P (Formula.roundTo x places) := by
  unfold Formula.roundTo
  split
  · exact hP.ofFloat _
  · exact hP.ofFloat _

theorem numbers {cells : List Value} (h : ∀ v ∈ cells, P v) :
    Yields bad (fun ns => ∀ n ∈ ns, P (.number n)) (Aggregate.numbers cells) := by
  induction cells with
  | nil => exact .ok nofun
  | cons v rest ih =>
    obtain ⟨hv, hrest⟩ := List.forall_mem_cons.mp h
    have hnumbers := ih hrest
    cases v with
    | number n =>
      rw [Aggregate.numbers]
      exact hnumbers.map fun ns hns => List.forall_mem_cons.mpr ⟨hv, hns⟩
    | error e => exact .error ((hP.error e).mp hv)
    | _ => exact hnumbers

theorem extreme {pick : Double → Double → Double} (hpick : ∀ x y, pick x y = x ∨ pick x y = y)
    {ns : List Double} (h : ∀ n ∈ ns, P (.number n)) : P (Aggregate.extreme pick ns) := by
  cases ns with
  | nil => exact (hP.error _).mpr hP.invalidRef
  | cons n rest =>
    obtain ⟨hn, hrest⟩ := List.forall_mem_cons.mp h
    refine List.foldlRecOn (motive := fun x => P (.number x)) rest pick hn fun x hx y hy => ?_
    obtain hsame | hsame := hpick x y
    · rwa [hsame]
    · rw [hsame]
      exact hrest y hy

theorem ofNumbers (a : Aggregate) {ns : List Double} (h : ∀ n ∈ ns, P (.number n)) :
    P (a.ofNumbers ns) := by
  cases a with
  | sum => exact hP.ofFloat _
  | average =>
    rw [Aggregate.ofNumbers]
    split
    · exact (hP.error _).mpr hP.divByZero
    · exact hP.ofFloat _
  | min => exact hP.extreme Number.lesser_eq_or h
  | max => exact hP.extreme Number.greater_eq_or h
  | count => exact hP.ofNat _
  | countPresent => exact hP.ofNat _

theorem reduce (a : Aggregate) {cells : List Value} (h : ∀ v ∈ cells, P v) : P (a.reduce cells) := by
  have hnumbers : P (.ofExcept ((Aggregate.numbers cells).map a.ofNumbers)) :=
    hP.ofExcept ((hP.numbers h).map fun ns hns => hP.ofNumbers a hns)
  cases a with
  | count => exact hP.ofNat _
  | countPresent => exact hP.ofNat _
  | _ => exact hnumbers

open Formula

variable {ctx : Context} (ht : ctx.table.All P)
include ht

theorem cellValue (a : CellAddress) : P (ctx.table.value a) := by
  unfold Table.value Table.cell?
  cases hcolumn : ctx.table.columns[a.column]? with
  | none => exact hP.missing
  | some c =>
    rw [Option.bind_some]
    cases hvalue : c.values[a.row]? with
    | none => exact hP.missing
    | some v => exact ht c (List.mem_of_getElem? hcolumn) v (List.mem_of_getElem? hvalue)

theorem rangeRows (r : RangeAddress) : ∀ row ∈ ctx.table.rangeRows r, ∀ v ∈ row, P v := by
  intro row hrow v hv
  obtain ⟨i, -, rfl⟩ := List.mem_map.mp hrow
  obtain ⟨j, -, rfl⟩ := List.mem_map.mp hv
  exact hP.cellValue ht _

theorem rangeValues (r : RangeAddress) : ∀ v ∈ ctx.table.rangeValues r, P v := by
  intro v hv
  obtain ⟨row, hrow, hv⟩ := List.mem_flatten.mp hv
  exact hP.rangeRows ht r row hrow v hv

theorem cell (address : String) : Yields bad P (ctx.cell address) := by
  unfold Context.cell
  split
  · exact .ok (hP.cellValue ht _)
  · exact .error hP.invalidRef

omit ht in
theorem range (ctx : Context) (corner opposite : String) :
    Yields bad (fun _ => True) (ctx.range corner opposite) := by
  unfold Context.range
  split
  · exact .ok trivial
  · exact .error hP.invalidRef

omit ht in
theorem present {v : Value} (h : P v) : Yields bad P (Formula.present v) := by
  cases v with
  | error e => exact .error ((hP.error e).mp h)
  | _ => exact .ok h

end Value.Closed

namespace Formula

variable {ctx : Context} (hP : Value.Closed bad P) (ht : ctx.table.All P)

namespace Argument

/-- If the argument is computed, its value has a property. -/
def Has (P : Value → Prop) : Argument → Prop
  | computed v => P v
  | _ => True

theorem has_asArgument {v : Value} (hv : P v) (e : Expr) : (e.asArgument v).Has P := by
  cases e with
  | cell address => trivial
  | range corner opposite => trivial
  | _ => exact hv

variable {a : Argument}
include hP ht

theorem Has.scalar (ha : a.Has P) : P (a.scalar ctx) := by
  cases a with
  | cell address =>
    rw [Argument.scalar]
    exact hP.ofExcept (hP.cell ht address)
  | range corner opposite =>
    rw [Argument.scalar]
    exact hP.ofExcept ((hP.range ctx _ _).map fun r _ => hP.cellValue ht _)
  | computed v => exact ha

theorem Has.required (ha : a.Has P) : Yields bad P (a.required ctx) := hP.present (ha.scalar hP ht)

theorem Has.number (ha : a.Has P) : Yields bad (fun x => P (.number x)) (a.number ctx) :=
  (ha.required hP ht).bind fun _ hv => hP.operand hv

theorem Has.cells (ha : a.Has P) : Yields bad (fun vs => ∀ v ∈ vs, P v) (a.cells ctx) := by
  cases a with
  | cell address =>
    rw [Argument.cells]
    exact (hP.cell ht address).map fun v hv => List.forall_mem_singleton.mpr hv
  | range corner opposite =>
    rw [Argument.cells]
    exact (hP.range ctx _ _).map fun r _ => hP.rangeValues ht r
  | computed v => exact (hP.present ha).map fun v hv => List.forall_mem_singleton.mpr hv

theorem Has.rows (ha : a.Has P) :
    Yields bad (fun rows => ∀ row ∈ rows, ∀ v ∈ row, P v) (a.rows ctx) := by
  have hsingle : Yields bad (fun rows => ∀ row ∈ rows, ∀ v ∈ row, P v)
      ((present (a.scalar ctx)).map fun v => [[v]]) :=
    (hP.present (ha.scalar hP ht)).map fun v hv =>
      List.forall_mem_singleton.mpr (List.forall_mem_singleton.mpr hv)
  cases a with
  | range corner opposite =>
    rw [Argument.rows]
    exact (hP.range ctx _ _).map fun r _ => hP.rangeRows ht r
  | _ => exact hsingle

theorem Has.allCells {arguments : List Argument} (ha : ∀ a ∈ arguments, a.Has P) :
    Yields bad (fun vs => ∀ v ∈ vs, P v) (allCells ctx arguments) := by
  have hlists : Yields bad (fun lists => ∀ vs ∈ lists, ∀ v ∈ vs, P v) (arguments.mapM (Argument.cells ctx)) :=
    .mapM_mem fun a hmem => (ha a hmem).cells hP ht
  refine hlists.map fun lists hlists v hv => ?_
  obtain ⟨vs, hvs, hv⟩ := List.mem_flatten.mp hv
  exact hlists vs hvs v hv

end Argument

/-- How many arguments a function takes one by one, without asking how many there are. -/
def Function.taken : Function → Nat
  | ifElse | sumIf | countIf => 2
  | round | abs | len | not => 1
  | vlookup => 3
  | _ => 0

theorem Function.taken_le_of_accepts (f : Function) {count : Nat} (h : f.arity.accepts count) :
    f.taken ≤ count := by
  cases f <;> simp [arity, Arity.accepts, taken] at h ⊢ <;> omega

theorem findRow?_mem {approximate : Bool} {needle : Value} {rows : List (List Value)} {row : List Value}
    (h : findRow? approximate needle rows = some row) : row ∈ rows := by
  unfold findRow? at h
  split at h
  · exact (List.takeWhile_sublist _).mem (List.mem_of_mem_filter (List.mem_of_getLast? h))
  · exact List.mem_of_find?_eq_some h

section
include hP

theorem flags_yields {cells : List Value} (h : ∀ v ∈ cells, P v) :
    Yields bad (fun _ => True) (flags cells) := by
  induction cells with
  | nil => exact .ok trivial
  | cons v rest ih =>
    obtain ⟨hv, hrest⟩ := List.forall_mem_cons.mp h
    have hflags := ih hrest
    cases v with
    | number n => exact hflags.map fun _ _ => trivial
    | boolean b => exact hflags.map fun _ _ => trivial
    | error e => exact .error ((hP.error e).mp hv)
    | _ => exact hflags

theorem judge_yields (test : List Bool → Bool) {cells : List Value} (h : ∀ v ∈ cells, P v) :
    Yields bad P (judge test cells) := by
  refine (flags_yields hP h).bind fun bs _ => ?_
  show Yields _ _ (if bs.isEmpty then _ else _)
  split
  · exact .error hP.typeMismatch
  · exact .ok (hP.boolean _)

theorem truth_yields (v : Value) : Yields bad (fun _ => True) (truth v) := by
  cases v with
  | boolean b => exact .ok trivial
  | number n => exact .ok trivial
  | _ => exact .error hP.typeMismatch

theorem rowOf_yields (address : String) : Yields bad P (applyFunction.rowOf address) := by
  unfold applyFunction.rowOf
  split
  · exact .ok (hP.ofNat _)
  · exact .error hP.invalidRef

/-- What a lookup finds is a cell of the rows it searches. -/
theorem lookup_yields {rows : List (List Value)} (h : ∀ row ∈ rows, ∀ v ∈ row, P v) (approximate : Bool)
    (needle : Value) (position : Nat) :
    Yields bad P (match (findRow? approximate needle rows).bind fun row =>
        if position = 0 then none else row[position - 1]? with
      | some v => pure v
      | none => throw .invalidRef) := by
  split
  next v hfound =>
    obtain ⟨row, hrow, hv⟩ := Option.bind_eq_some_iff.mp hfound
    split at hv
    · cases hv
    · exact .ok (h row (findRow?_mem hrow) v (List.mem_of_getElem? hv))
  next => exact .error hP.invalidRef

theorem sumAt {cells : List Value} (h : ∀ v ∈ cells, P v) (chosen : List (Value × Nat)) :
    P (Aggregate.sum.reduce (chosen.map fun (_, i) => cells.getD i .missing)) := by
  refine hP.reduce _ fun v hv => ?_
  obtain ⟨⟨_, i⟩, -, rfl⟩ := List.mem_map.mp hv
  show P (cells.getD i .missing)
  rw [List.getD_eq_getElem?_getD]
  cases hi : cells[i]? with
  | none => exact hP.missing
  | some v => exact h v (List.mem_of_getElem? hi)

end

section
include hP ht

theorem ifElse_yields {condition yes : Argument} {no : List Argument}
    (ha : ∀ a ∈ condition :: yes :: no, a.Has P) :
    Yields bad P (applyFunction ctx .ifElse (condition :: yes :: no)) := by
  obtain ⟨hcondition, ha⟩ := List.forall_mem_cons.mp ha
  obtain ⟨hyes, hno⟩ := List.forall_mem_cons.mp ha
  rw [applyFunction]
  split
  · exact .ok (hyes.scalar hP ht)
  · cases no with
    | nil => exact .ok (hP.boolean _)
    | cons no _ => exact .ok ((hno no List.mem_cons_self).scalar hP ht)
  next e he =>
    have herror := hcondition.scalar hP ht
    rw [he] at herror
    exact .error ((hP.error e).mp herror)
  · exact .error hP.typeMismatch

theorem round_yields {x : Argument} {places : List Argument} (ha : ∀ a ∈ x :: places, a.Has P) :
    Yields bad P (applyFunction ctx .round (x :: places)) := by
  obtain ⟨hx, hplaces⟩ := List.forall_mem_cons.mp ha
  refine (hx.number hP ht).bind fun x _ => ?_
  cases places with
  | nil => exact .ok (hP.roundTo _ _)
  | cons places _ =>
    have hnumber := (hplaces places List.mem_cons_self).number hP ht
    exact hnumber.bind fun places _ => .ok (hP.roundTo _ _)

theorem sumIf_yields {range criterion : Argument} {summed : List Argument}
    (ha : ∀ a ∈ range :: criterion :: summed, a.Has P) :
    Yields bad P (applyFunction ctx .sumIf (range :: criterion :: summed)) := by
  obtain ⟨hrange, ha⟩ := List.forall_mem_cons.mp ha
  obtain ⟨hcriterion, hsummed⟩ := List.forall_mem_cons.mp ha
  refine (hrange.cells hP ht).bind fun cells hcells => (hcriterion.required hP ht).bind fun v _ => ?_
  cases summed with
  | nil => exact .ok (sumAt hP hcells _)
  | cons summed _ =>
    have hothers := (hsummed summed List.mem_cons_self).cells hP ht
    exact hothers.bind fun others hothers => .ok (sumAt hP hothers _)

theorem vlookup_yields {needle rows column : Argument} {mode : List Argument}
    (ha : ∀ a ∈ needle :: rows :: column :: mode, a.Has P) :
    Yields bad P (applyFunction ctx .vlookup (needle :: rows :: column :: mode)) := by
  obtain ⟨hneedle, ha⟩ := List.forall_mem_cons.mp ha
  obtain ⟨hrows, ha⟩ := List.forall_mem_cons.mp ha
  obtain ⟨hcolumn, hmode⟩ := List.forall_mem_cons.mp ha
  refine (hneedle.required hP ht).bind fun needle _ => (hrows.rows hP ht).bind fun rows hrows =>
    (hcolumn.number hP ht).bind fun column _ => .check hP.typeMismatch fun _ => ?_
  cases mode with
  | nil => exact lookup_yields hP hrows _ _ _
  | cons mode _ =>
    have happroximate := ((hmode mode List.mem_cons_self).required hP ht).bind fun v _ => truth_yields hP v
    exact happroximate.bind fun approximate _ => lookup_yields hP hrows _ _ _

omit ht in
theorem row_yields (arguments : List Argument) : Yields bad P (applyFunction ctx .row arguments) := by
  cases arguments with
  | nil =>
    rw [applyFunction]
    split
    · exact .ok (hP.ofNat _)
    · exact .error hP.invalidRef
  | cons a rest =>
    cases a with
    | cell address => exact rowOf_yields hP address
    | range corner opposite => exact rowOf_yields hP corner
    | computed v => exact .error hP.typeMismatch

/-- What a function makes of arguments with a property has it, if the function does not miss an argument
or that is no bad error. -/
theorem applyFunction_yields (f : Function) {arguments : List Argument} (ha : ∀ a ∈ arguments, a.Has P)
    (hmany : bad .malformed → f.taken ≤ arguments.length) :
    Yields bad P (applyFunction ctx f arguments) := by
  have hfew (h : arguments.length < f.taken) : ¬bad .malformed := fun hbad => Nat.not_lt.mpr (hmany hbad) h
  cases f with
  | aggregate a => exact (Argument.Has.allCells hP ht ha).map fun cells hcells => hP.reduce a hcells
  | and => exact (Argument.Has.allCells hP ht ha).bind fun cells hcells => judge_yields hP _ hcells
  | or => exact (Argument.Has.allCells hP ht ha).bind fun cells hcells => judge_yields hP _ hcells
  | concat =>
    exact (Yields.mapM_mem (Q := fun _ => True) fun a hmem =>
      ((ha a hmem).required hP ht).map fun _ _ => trivial).bind fun texts _ => .ok (hP.text _)
  | ifElse =>
    obtain _ | ⟨condition, _ | ⟨yes, no⟩⟩ := arguments
    · exact .error (hfew (by simp [Function.taken]))
    · exact .error (hfew (by simp [Function.taken]))
    · exact ifElse_yields hP ht ha
  | round =>
    obtain _ | ⟨x, places⟩ := arguments
    · exact .error (hfew (by simp [Function.taken]))
    · exact round_yields hP ht ha
  | abs =>
    obtain _ | ⟨x, rest⟩ := arguments
    · exact .error (hfew (by simp [Function.taken]))
    · exact ((ha x List.mem_cons_self).number hP ht).bind fun n hn => .ok (hP.abs n hn)
  | len =>
    obtain _ | ⟨x, rest⟩ := arguments
    · exact .error (hfew (by simp [Function.taken]))
    · exact ((ha x List.mem_cons_self).required hP ht).bind fun v _ => .ok (hP.ofNat _)
  | not =>
    obtain _ | ⟨x, rest⟩ := arguments
    · exact .error (hfew (by simp [Function.taken]))
    · exact ((ha x List.mem_cons_self).required hP ht).bind fun v _ =>
        (truth_yields hP v).bind fun b _ => .ok (hP.boolean _)
  | countIf =>
    obtain _ | ⟨range, _ | ⟨criterion, rest⟩⟩ := arguments
    · exact .error (hfew (by simp [Function.taken]))
    · exact .error (hfew (by simp [Function.taken]))
    · have hcells := (ha range List.mem_cons_self).cells hP ht
      have hcriterion := (ha criterion (List.mem_cons_of_mem _ List.mem_cons_self)).required hP ht
      exact hcells.bind fun cells _ => hcriterion.bind fun v _ => .ok (hP.ofNat _)
  | sumIf =>
    obtain _ | ⟨range, _ | ⟨criterion, summed⟩⟩ := arguments
    · exact .error (hfew (by simp [Function.taken]))
    · exact .error (hfew (by simp [Function.taken]))
    · exact sumIf_yields hP ht ha
  | vlookup =>
    obtain _ | ⟨needle, _ | ⟨rows, _ | ⟨column, mode⟩⟩⟩ := arguments
    · exact .error (hfew (by simp [Function.taken]))
    · exact .error (hfew (by simp [Function.taken]))
    · exact .error (hfew (by simp [Function.taken]))
    · exact vlookup_yields hP ht ha
  | row => exact row_yields hP arguments

/-- A property of values that evaluation keeps is one of the value of an expression if the cells of the
table and the literals have it. If some errors have not, the calls have to be well formed. -/
theorem eval_closed (e : Expr) (hliterals : ∀ x ∈ e.literals, P (.number x))
    (hcalls : ∀ x, bad x → e.WellCalled) : P (eval ctx e) := by
  induction e with
  | number n =>
    rw [eval]
    exact hliterals n (List.mem_singleton_self n)
  | text s =>
    rw [eval]
    exact hP.text s
  | boolean b =>
    rw [eval]
    exact hP.boolean b
  | cell address =>
    rw [eval]
    exact Argument.Has.scalar (a := .cell address) hP ht trivial
  | range corner opposite =>
    rw [eval]
    exact Argument.Has.scalar (a := .range corner opposite) hP ht trivial
  | binary op left right ihleft ihright =>
    rw [Expr.literals] at hliterals
    rw [eval]
    refine hP.applyBinary op (ihleft ?_ ?_) (ihright ?_ ?_)
    · exact fun x hx => hliterals x (List.mem_append_left _ hx)
    · exact fun x hx => (hcalls x hx).left
    · exact fun x hx => hliterals x (List.mem_append_right _ hx)
    · exact fun x hx => (hcalls x hx).right
  | unary sign operand ih =>
    rw [Expr.literals] at hliterals
    rw [eval]
    exact hP.applySign sign (ih hliterals fun x hx => (hcalls x hx).operand)
  | call name arguments ih =>
    rw [Expr.literals] at hliterals
    have harguments : ∀ a ∈ evalArguments ctx arguments, a.Has P := by
      refine forall_mem_evalArguments.mpr fun e he => Argument.has_asArgument (ih e he ?_ ?_) e
      · exact fun x hx => hliterals x (mem_listLiterals.mpr ⟨e, he, hx⟩)
      · exact fun x hx => (hcalls x hx).argument he
    have hwell (x : CellError) (hx : bad x) := hcalls x hx name arguments (.here name arguments)
    rw [eval, applyCall, length_evalArguments]
    cases hname : Function.ofName? name with
    | none =>
      refine (hP.error _).mpr fun hbad => ?_
      obtain ⟨f, hf, -⟩ := hwell _ hbad
      rw [hname] at hf
      cases hf
    | some f =>
      dsimp only
      split
      next haccepts =>
        refine hP.ofExcept (applyFunction_yields hP ht f harguments fun _ => ?_)
        rw [length_evalArguments]
        exact f.taken_le_of_accepts haccepts
      next hrejects =>
        refine (hP.error _).mpr fun hbad => ?_
        obtain ⟨g, hg, haccepts⟩ := hwell _ hbad
        obtain rfl := Option.some.inj (hname.symm.trans hg)
        exact hrejects haccepts

end

end Formula

end

end Tabular
