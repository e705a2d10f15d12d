import Tabular.Proofs.Formula.Cells
import Tabular.Proofs.Table.Offsets

/-!
# Sums of cells across from others

A conditional sum counts through the cells of both ranges, row by row, and adds up what the second one
has where a cell of the first one meets the criterion. As each range is first cut off at the edge of the
table, cells that are counted alike need not have the same offsets: they do if the rest of both ranges
has the same width, or if the narrower rest is a single row.
-/
namespace Tabular

namespace Table

variable {t : Table} {r s : RangeAddress}

/-- The offsets of a cell in the second range that has as many cells before it as the cell of the first
range with the given ones. -/
def counted? (t : Table) (r s : RangeAddress) (p : Nat × Nat) : Option (Nat × Nat) :=
  let k := p.1 * t.widthOf r + p.2
  if k < t.heightOf s * t.widthOf s then some (k / t.widthOf s, k % t.widthOf s) else none

/-- The same offsets, where the range has a cell in the table. -/
def placed? (t : Table) (s : RangeAddress) (p : Nat × Nat) : Option (Nat × Nat) :=
  if t.contains (s.offset p.1 p.2) then some p else none

/-- What is left of both ranges in the table has one width, or the narrower of them is a single row. -/
def InStep (t : Table) (r s : RangeAddress) : Prop :=
  t.widthOf r = t.widthOf s ∨ (t.heightOf r = 1 ∧ t.widthOf r ≤ t.widthOf s) ∨
    (t.heightOf s = 1 ∧ t.widthOf s ≤ t.widthOf r)

/-- The offsets at which a range has a cell in the table that meets the criterion, row by row. -/
def matching (t : Table) (r : RangeAddress) (criterion : Formula.Criterion) : List (Nat × Nat) :=
  (t.offsets r).filter fun p => criterion.meets (t.value (r.offset p.1 p.2))

/-- The cell at offsets of a range, missing if there are none. -/
def valueAt (t : Table) (s : RangeAddress) : Option (Nat × Nat) → Value
  | some p => t.value (s.offset p.1 p.2)
  | none => .missing

theorem valueAt_placed? (t : Table) (s : RangeAddress) (p : Nat × Nat) :
    t.valueAt s (t.placed? s p) = t.paddedValue (s.offset p.1 p.2) := by
  rw [placed?, paddedValue]
  split <;> rfl

theorem valueAt_counted? (t : Table) (r s : RangeAddress) (p : Nat × Nat) :
    t.valueAt s (t.counted? r s p) = (t.rangeValues s).getD (p.1 * t.widthOf r + p.2) .missing := by
  rw [rangeValues_eq_map, List.getD_eq_getElem?_getD, List.getElem?_map, counted?]
  split
  next hlt =>
    rw [List.getElem?_range hlt]
    rfl
  next hle =>
    rw [List.getElem?_eq_none (by rw [List.length_range]; exact Nat.le_of_not_lt hle)]
    rfl

section
variable (hs : t.contains s.start) (hcovers : s.Covers s.start)
include hs hcovers

theorem placed?_eq {p : Nat × Nat} (hrow : p.1 < s.height) (hcolumn : p.2 < s.width) :
    t.placed? s p = if p.1 < t.heightOf s ∧ p.2 < t.widthOf s then some p else none := by
  rw [placed?]
  exact if_congr (contains_offset_iff hs hcovers hrow hcolumn) rfl rfl

theorem counted?_eq (i j : Nat) :
    t.counted? r s (i, j) =
      if (i * t.widthOf r + j) / t.widthOf s < t.heightOf s then
        some ((i * t.widthOf r + j) / t.widthOf s, (i * t.widthOf r + j) % t.widthOf s)
      else none :=
  if_congr (Nat.div_lt_iff_lt_mul (widthOf_pos hs hcovers)).symm rfl rfl

/-- In step, the cells that are counted alike have the same offsets. -/
theorem counted?_of_inStep (h : t.InStep r s) {i j : Nat} (hi : i < t.heightOf r) (hj : j < t.widthOf r) :
    t.counted? r s (i, j) = if i < t.heightOf s ∧ j < t.widthOf s then some (i, j) else none := by
  have hheight := heightOf_pos hs hcovers
  rw [counted?_eq hs hcovers]
  -- the cells of both first rows are counted alike as far as the second one goes
  have hfirst (hi : i = 0) (hlt : j < t.widthOf s) :
      (if (i * t.widthOf r + j) / t.widthOf s < t.heightOf s then
        some ((i * t.widthOf r + j) / t.widthOf s, (i * t.widthOf r + j) % t.widthOf s)
      else none) = if i < t.heightOf s ∧ j < t.widthOf s then some (i, j) else none := by
    rw [hi, Nat.zero_mul, Nat.zero_add, Nat.div_eq_of_lt hlt, Nat.mod_eq_of_lt hlt, if_pos hheight,
      if_pos ⟨hheight, hlt⟩]
  obtain hsame | ⟨hone, hle⟩ | ⟨hone, hle⟩ := h
  · have hlt := hsame ▸ hj
    rw [hsame, mul_add_div_of_lt hlt, Nat.mul_add_mod_of_lt hlt]
    exact if_congr (and_iff_left hlt).symm rfl rfl
  · exact hfirst (by omega) (Nat.lt_of_lt_of_le hj hle)
  · cases i with
    | zero =>
      obtain hlt | hpast := Nat.lt_or_ge j (t.widthOf s)
      · exact hfirst rfl hlt
      · have hquotient : 1 ≤ (0 * t.widthOf r + j) / t.widthOf s := by
          rwa [Nat.zero_mul, Nat.zero_add, Nat.one_le_div_iff (widthOf_pos hs hcovers)]
        rw [if_neg (by omega), if_neg (by omega)]
    | succ i =>
      have hquotient : 1 ≤ ((i + 1) * t.widthOf r + j) / t.widthOf s := by
        rw [Nat.one_le_div_iff (widthOf_pos hs hcovers), Nat.succ_mul]
        omega
      rw [if_neg (by omega), if_neg (by omega)]

/-- Out of step, the first cell that one of the ranges no longer has in its first row is counted like one
with other offsets. -/
theorem inStep_of_counted? (hr : t.contains r.start) (hrcovers : r.Covers r.start)
    (h : ∀ i < t.heightOf r, ∀ j < t.widthOf r,
      t.counted? r s (i, j) = if i < t.heightOf s ∧ j < t.widthOf s then some (i, j) else none) :
    t.InStep r s := by
  have hheight := heightOf_pos hr hrcovers
  have hwidth := widthOf_pos hr hrcovers
  have hheight' := heightOf_pos hs hcovers
  have hwidth' := widthOf_pos hs hcovers
  obtain hlt | hsame | hgt := Nat.lt_trichotomy (t.widthOf r) (t.widthOf s)
  · refine .inr (.inl ⟨?_, Nat.le_of_lt hlt⟩)
    by_contra hrows
    have hcounted := h 1 (by omega) 0 hwidth
    rw [counted?_eq hs hcovers] at hcounted
    rw [Nat.one_mul, Nat.add_zero, Nat.div_eq_of_lt hlt, Nat.mod_eq_of_lt hlt, if_pos hheight'] at hcounted
    split at hcounted
    next => cases hcounted
    next => cases hcounted
  · exact .inl hsame
  · refine .inr (.inr ⟨?_, Nat.le_of_lt hgt⟩)
    by_contra hrows
    have hcounted := h 0 hheight _ hgt
    rw [counted?_eq hs hcovers] at hcounted
    rw [Nat.zero_mul, Nat.zero_add, Nat.div_self hwidth', if_pos (by omega), if_neg (by omega)] at hcounted
    cases hcounted

/-- Cells of ranges of one size that are counted alike have the same offsets exactly if the ranges are in
step. -/
theorem counted?_eq_placed?_iff (hr : t.contains r.start) (hrcovers : r.Covers r.start)
    (hheight : r.height = s.height) (hwidth : r.width = s.width) :
    (∀ p ∈ t.offsets r, t.counted? r s p = t.placed? s p) ↔ t.InStep r s := by
  have hplaced {p : Nat × Nat} (hp : p ∈ t.offsets r) :
      t.placed? s p = if p.1 < t.heightOf s ∧ p.2 < t.widthOf s then some p else none := by
    obtain ⟨hi, hj⟩ := (mem_offsets_iff hr hrcovers).mp hp
    exact placed?_eq hs hcovers (hheight ▸ Nat.lt_of_lt_of_le hi (t.heightOf_le_height r))
      (hwidth ▸ Nat.lt_of_lt_of_le hj (t.widthOf_le_width r))
  constructor
  · intro h
    refine inStep_of_counted? hs hcovers hr hrcovers fun i hi j hj => ?_
    have hp := (mem_offsets_iff hr hrcovers (p := (i, j))).mpr ⟨hi, hj⟩
    rw [h _ hp, hplaced hp]
  · intro h p hp
    obtain ⟨hi, hj⟩ := (mem_offsets_iff hr hrcovers).mp hp
    rw [hplaced hp, counted?_of_inStep hs hcovers h hi hj]

end

/-- The cells of a range with their numbers, each found at its offsets. -/
theorem zipIdx_rangeValues (hr : t.contains r.start) (hcovers : r.Covers r.start) :
    (t.rangeValues r).zipIdx =
      (t.offsets r).map fun p => (t.value (r.offset p.1 p.2), p.1 * t.widthOf r + p.2) := by
  rw [rangeValues_eq_map, offsets_eq hr hcovers, List.map_map]
  refine List.ext_getElem (by simp) fun k _ _ => ?_
  simp [Nat.div_add_mod']

end Table

namespace Formula

variable {ctx : Context} {r s : RangeAddress}

theorem applyFunction_sumIf {range criterion summed : Argument} {cells others : List Value} {v : Value}
    (hcells : range.cells ctx = .ok cells) (hcriterion : criterion.required ctx = .ok v)
    (hothers : summed.cells ctx = .ok others) :
    applyFunction ctx .sumIf [range, criterion, summed] =
      .ok (Aggregate.sum.reduce ((cells.zipIdx.filter fun p => (Criterion.ofValue v).meets p.1).map
        fun p => others.getD p.2 .missing)) := by
  rw [applyFunction, hcells, hcriterion]
  simp only [bind, Except.bind, hothers, pure, Except.pure]

theorem evalArguments_sumIf (ctx : Context) (corner opposite corner' opposite' : String) (criterion : Expr) :
    evalArguments ctx [.range corner opposite, criterion, .range corner' opposite'] =
      [.range corner opposite, criterion.asArgument (eval ctx criterion), .range corner' opposite'] := by
  rw [evalArguments_eq_map]
  rfl

theorem eval_sumIf {name corner opposite corner' opposite' : String} {criterion : Expr}
    (hname : Function.ofName? name = some .sumIf) (hr : ctx.range corner opposite = .ok r)
    (hs : ctx.range corner' opposite' = .ok s) (hcriterion : (eval ctx criterion).isError = false) :
    eval ctx (.call name [.range corner opposite, criterion, .range corner' opposite']) =
      Aggregate.sum.reduce ((ctx.table.matching r (.ofValue (eval ctx criterion))).map
        fun p => ctx.table.valueAt s (ctx.table.counted? r s p)) := by
  obtain ⟨hparse, hstart⟩ := Context.range_eq_ok.mp hr
  have hcovers := RangeAddress.covers_start hparse
  have hcells : (Argument.range corner opposite).cells ctx = .ok (ctx.table.rangeValues r) := by
    rw [Argument.cells, hr, Except.map]
  have hothers : (Argument.range corner' opposite').cells ctx = .ok (ctx.table.rangeValues s) := by
    rw [Argument.cells, hs, Except.map]
  have hrequired : (criterion.asArgument (eval ctx criterion)).required ctx = .ok (eval ctx criterion) := by
    rw [required_asArgument, present_eq_ok hcriterion]
  rw [eval_call hname rfl, evalArguments_sumIf, applyFunction_sumIf hcells hrequired hothers, Table.zipIdx_rangeValues hstart hcovers,
    List.filter_map, List.map_map]
  simp only [Table.valueAt_counted?]
  rfl

theorem eval_sumIf_of_error {name corner opposite corner' opposite' : String} {criterion : Expr} {e : CellError}
    (hname : Function.ofName? name = some .sumIf) (hr : ctx.range corner opposite = .ok r)
    (hcriterion : eval ctx criterion = .error e) :
    eval ctx (.call name [.range corner opposite, criterion, .range corner' opposite']) = .error e := by
  have hrequired : (criterion.asArgument (eval ctx criterion)).required ctx = .error e := by
    rw [required_asArgument, hcriterion, present]
  rw [eval_call hname rfl, evalArguments_sumIf, applyFunction, hrequired, Argument.cells, hr]
  rfl

/-- A conditional sum over two ranges of one size adds up the cells of the second one that are counted
like the matching cells of the first one. These are the cells at the same offsets, those outside the
table being missing, exactly if what is left of the ranges in the table is in step. -/
theorem eval_sumIf_counted {name corner opposite corner' opposite' : String} {criterion : Expr}
    (hname : Function.ofName? name = some .sumIf) (hr : ctx.range corner opposite = .ok r)
    (hs : ctx.range corner' opposite' = .ok s) (hheight : r.height = s.height) (hwidth : r.width = s.width) :
    (∀ e, eval ctx criterion = .error e →
      eval ctx (.call name [.range corner opposite, criterion, .range corner' opposite']) = .error e) ∧
    ((∀ p ∈ ctx.table.offsets r, ctx.table.counted? r s p = ctx.table.placed? s p) ↔
      ctx.table.InStep r s) ∧
    ((eval ctx criterion).isError = false →
      eval ctx (.call name [.range corner opposite, criterion, .range corner' opposite']) =
        Aggregate.sum.reduce ((ctx.table.matching r (.ofValue (eval ctx criterion))).map
          fun p => ctx.table.valueAt s (ctx.table.counted? r s p)) ∧
      (ctx.table.InStep r s →
        eval ctx (.call name [.range corner opposite, criterion, .range corner' opposite']) =
          Aggregate.sum.reduce ((ctx.table.matching r (.ofValue (eval ctx criterion))).map
            fun p => ctx.table.paddedValue (s.offset p.1 p.2)))) := by
  obtain ⟨hparse, hstart⟩ := Context.range_eq_ok.mp hr
  have hcovers := RangeAddress.covers_start hparse
  obtain ⟨hparse', hstart'⟩ := Context.range_eq_ok.mp hs
  have hcovers' := RangeAddress.covers_start hparse'
  have hsame := Table.counted?_eq_placed?_iff hstart' hcovers' hstart hcovers hheight hwidth
  refine ⟨fun e he => eval_sumIf_of_error hname hr he, hsame, fun hcriterion => ?_⟩
  have hvalue := eval_sumIf hname hr hs hcriterion
  refine ⟨hvalue, fun hstep => hvalue.trans (congrArg _ (List.map_congr_left fun p hp => ?_))⟩
  rw [hsame.mpr hstep p (List.mem_filter.mp hp).1, Table.valueAt_placed?]

def flows : Table :=
  ⟨[⟨"in", .number, [.number 1.0, .number 2.0, .number 1.0]⟩,
    ⟨"out", .number, [.number 1.0, .number 4.0, .missing]⟩], 3⟩

/-- The sum of the flows in the row after each flow of one, with a range that has a row more in the table
than the other one. -/
theorem eval_sumIf_flows :
    (Function.ofName? "SumIf" = some .sumIf ∧
      Context.range ⟨flows, none⟩ "A1" "B4" = .ok ⟨⟨0, 0⟩, ⟨3, 1⟩⟩ ∧
      Context.range ⟨flows, none⟩ "A2" "B5" = .ok ⟨⟨1, 0⟩, ⟨4, 1⟩⟩ ∧
      (eval ⟨flows, none⟩ (.number 1.0)).isError = false ∧
      flows.InStep ⟨⟨0, 0⟩, ⟨3, 1⟩⟩ ⟨⟨1, 0⟩, ⟨4, 1⟩⟩) ∧
    eval ⟨flows, none⟩ (.call "SumIf" [.range "A1" "B4", .number 1.0, .range "A2" "B5"]) =
      Aggregate.sum.reduce ((flows.matching ⟨⟨0, 0⟩, ⟨3, 1⟩⟩ (.ofValue (.number 1.0))).map
        fun p => flows.paddedValue (RangeAddress.offset ⟨⟨1, 0⟩, ⟨4, 1⟩⟩ p.1 p.2)) ∧
    Aggregate.sum.reduce ((flows.matching ⟨⟨0, 0⟩, ⟨3, 1⟩⟩ (.ofValue (.number 1.0))).map
      fun p => flows.paddedValue (RangeAddress.offset ⟨⟨1, 0⟩, ⟨4, 1⟩⟩ p.1 p.2)) = .number 6.0 := by
  have hname : Function.ofName? "SumIf" = some .sumIf := by decide +kernel
  have hr : Context.range ⟨flows, none⟩ "A1" "B4" = .ok ⟨⟨0, 0⟩, ⟨3, 1⟩⟩ := by decide +kernel
  have hs : Context.range ⟨flows, none⟩ "A2" "B5" = .ok ⟨⟨1, 0⟩, ⟨4, 1⟩⟩ := by decide +kernel
  have hstep : flows.InStep ⟨⟨0, 0⟩, ⟨3, 1⟩⟩ ⟨⟨1, 0⟩, ⟨4, 1⟩⟩ := .inl (by decide +kernel)
  have hvalue := (eval_sumIf_counted hname hr hs rfl rfl).2.2 (rfl : (eval ⟨flows, none⟩ (.number 1.0)).isError = false)
  exact ⟨⟨hname, hr, hs, rfl, hstep⟩, hvalue.2 hstep, by decide +kernel⟩

/-- Two columns of flags and, at the edge of the table, one of amounts. -/
def flagged : Table :=
  ⟨[⟨"a", .number, [.number 1.0, .number 0.0]⟩, ⟨"b", .number, [.number 1.0, .number 0.0]⟩,
    ⟨"c", .number, [.number 10.0, .number 20.0]⟩], 2⟩

/-- The second cell of the flags is counted like the amount below the first one, and not like the cell
outside the table that has its offsets. -/
theorem eval_sumIf_flagged_ne :
    Context.range ⟨flagged, none⟩ "A1" "B2" = .ok ⟨⟨0, 0⟩, ⟨1, 1⟩⟩ ∧
    Context.range ⟨flagged, none⟩ "C1" "D2" = .ok ⟨⟨0, 2⟩, ⟨1, 3⟩⟩ ∧
    RangeAddress.height ⟨⟨0, 0⟩, ⟨1, 1⟩⟩ = RangeAddress.height ⟨⟨0, 2⟩, ⟨1, 3⟩⟩ ∧
    RangeAddress.width ⟨⟨0, 0⟩, ⟨1, 1⟩⟩ = RangeAddress.width ⟨⟨0, 2⟩, ⟨1, 3⟩⟩ ∧
    eval ⟨flagged, none⟩ (.call "SUMIF" [.range "A1" "B2", .number 1.0, .range "C1" "D2"]) = .number 30.0 ∧
    Aggregate.sum.reduce ((flagged.matching ⟨⟨0, 0⟩, ⟨1, 1⟩⟩ (.ofValue (.number 1.0))).map
      fun p => flagged.paddedValue (RangeAddress.offset ⟨⟨0, 2⟩, ⟨1, 3⟩⟩ p.1 p.2)) = .number 10.0 := by
  decide +kernel

end Formula

end Tabular
