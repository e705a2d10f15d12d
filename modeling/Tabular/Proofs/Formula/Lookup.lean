import Tabular.Proofs.Formula.Expr
import Tabular.Proofs.Table.Offsets
import Tabular.Proofs.Value.Comparison

/-!
# Looking up rows

An approximate lookup reads rows as long as their keys are not above the needle. If the keys of all
rows ascend, none after these is the needle or below it, so that the lookup finds the last such row of
the whole range. An exact lookup finds the first row with the needle for its key, and that is the same
row once no key comes twice.
-/
namespace Tabular

section
variable {α : Type} {p q : α → Bool} {l : List α}

/-- A list need not be filtered further than up to where nothing is left. -/
theorem filter_takeWhile (hfirst : ∀ a ∈ l, p a = false → q a = false)
    (hrest : l.Pairwise fun a b => p a = false → q b = false) : (l.takeWhile p).filter q = l.filter q := by
  induction l with
  | nil => rfl
  | cons a l ih =>
    obtain ⟨ha, hl⟩ := List.forall_mem_cons.mp hfirst
    obtain ⟨hpa, hpl⟩ := List.pairwise_cons.mp hrest
    cases hp : p a with
    | true => rw [List.takeWhile_cons_of_pos hp, List.filter_cons, List.filter_cons, ih hl hpl]
    | false =>
      have hnone : (a :: l).filter q = [] := by
        refine List.filter_eq_nil_iff.mpr fun b hb => Bool.not_eq_true _ ▸ ?_
        obtain rfl | hb := List.mem_cons.mp hb
        · exact ha hp
        · exact hpa b hb hp
      rw [List.takeWhile_cons_of_neg (by simp [hp]), hnone, List.filter_nil]

end

/-- The last number below a bound of which something holds. -/
theorem getLast?_filter_range {p : Nat → Bool} {i n : Nat} (hi : i < n) (hp : p i = true)
    (hlast : ∀ k < n, i < k → p k = false) : ((List.range n).filter p).getLast? = some i := by
  induction n with
  | zero => cases hi
  | succ n ih =>
    rw [List.range_succ, List.filter_append]
    obtain rfl | hlt := Nat.eq_or_lt_of_le (Nat.le_of_lt_succ hi)
    · rw [List.filter_cons_of_pos hp, List.filter_nil, List.getLast?_concat]
    · have hn : p n = false := hlast n (Nat.lt_succ_self n) hlt
      rw [List.filter_cons_of_neg (by simp [hn]), List.filter_nil, List.append_nil]
      exact ih hlt fun k hk => hlast k (Nat.lt_succ_of_lt hk)

namespace Table

variable {t : Table} {r : RangeAddress} {needle : Value} {op : Comparison} {i j : Nat}

def key (t : Table) (r : RangeAddress) (i : Nat) : Value := t.value (r.offset i 0)

/-- Each key of a range compares so with the next one, and none is a double that is not a number. -/
structure Ascending (t : Table) (r : RangeAddress) (op : Comparison) : Prop where
  isNaN : ∀ i < t.heightOf r, (t.key r i).isNaN = false
  step : ∀ i, i + 1 < t.heightOf r → (t.key r i).holds op (t.key r (i + 1)) = true

/-- The last row of a range whose key is the needle or below it. -/
structure IsFloor (t : Table) (r : RangeAddress) (needle : Value) (i : Nat) : Prop where
  lt : i < t.heightOf r
  le : (t.key r i).holds .le needle = true
  last : ∀ k < t.heightOf r, i < k → (t.key r k).holds .le needle = false

namespace Ascending

/-- Keys that ascend strictly do so. -/
theorem le (h : t.Ascending r .lt) : t.Ascending r .le where
  isNaN := h.isNaN
  step i hi :=
    (Value.holds_le_iff (h.isNaN i (Nat.lt_of_succ_lt hi)) (h.isNaN _ hi)).mpr (.inl (h.step i hi))

theorem holds (h : t.Ascending r op) (hop : op = .lt ∨ op = .le) (hij : i < j) (hj : j < t.heightOf r) :
    (t.key r i).holds op (t.key r j) = true := by
  have hle : t.Ascending r .le := by
    rcases hop with rfl | rfl
    · exact h.le
    · exact h
  -- the step to the next key is extended, one key at a time
  induction j, hij using Nat.le_induction with
  | base => exact h.step i hj
  | succ j hij ih =>
    exact Value.holds_trans hop (h.isNaN i (by omega)) (h.isNaN j (Nat.lt_of_succ_lt hj)) (h.isNaN _ hj)
      (ih (Nat.lt_of_succ_lt hj)) (hle.step j hj)

/-- After a key above the needle there is none that is the needle or below it. -/
theorem not_le_of_gt (h : t.Ascending r .le) (hneedle : needle.isNaN = false) (hij : i ≤ j)
    (hj : j < t.heightOf r) (hgt : (t.key r i).holds .gt needle = true) :
    (t.key r j).holds .le needle = false := by
  have hi := h.isNaN i (Nat.lt_of_le_of_lt hij hj)
  have hnot : (t.key r i).holds .le needle = false :=
    Value.not_holds_of_excludes hi hneedle (by decide) hgt
  obtain rfl | hlt := Nat.eq_or_lt_of_le hij
  · exact hnot
  · rw [Bool.eq_false_iff]
    intro hle
    have htrans := Value.holds_trans (.inr rfl) hi (h.isNaN j hj) hneedle (h.holds (.inr rfl) hlt hj) hle
    exact Bool.false_ne_true (hnot.symm.trans htrans)

/-- Of keys that ascend strictly, those before one that is not above the needle are below it. -/
theorem lt_needle (h : t.Ascending r .lt) (hneedle : needle.isNaN = false) (hij : i < j)
    (hj : j < t.heightOf r) (hle : (t.key r j).holds .le needle = true) :
    (t.key r i).holds .lt needle = true :=
  Value.holds_trans (.inl rfl) (h.isNaN i (Nat.lt_trans hij hj)) (h.isNaN j hj) hneedle
    (h.holds (.inl rfl) hij hj) hle

/-- The row with the needle for its key, if keys ascend strictly. -/
theorem eq_needle (h : t.Ascending r .lt) (hneedle : needle.isNaN = false) (hi : i < t.heightOf r)
    (heq : (t.key r i).holds .eq needle = true) :
    t.IsFloor r needle i ∧ ∀ k < i, (t.key r k).holds .eq needle = false := by
  have hle := (Value.holds_le_iff (h.isNaN i hi) hneedle).mpr (.inr heq)
  refine ⟨⟨hi, hle, fun k hk hik => Bool.eq_false_iff.mpr fun hkle => ?_⟩, fun k hki => ?_⟩
  · have hlt := h.lt_needle hneedle hik hk hkle
    have hne : (t.key r i).holds .eq needle = false :=
      Value.not_holds_of_excludes (h.isNaN i hi) hneedle (by decide) hlt
    exact Bool.false_ne_true (hne.symm.trans heq)
  · exact Value.not_holds_of_excludes (h.isNaN k (Nat.lt_trans hki hi)) hneedle (by decide)
      (h.lt_needle hneedle hki hi hle)

end Ascending

def rangeRow (t : Table) (r : RangeAddress) (i : Nat) : List Value :=
  (List.range (t.widthOf r)).map fun j => t.value (r.offset i j)

theorem head?_rangeRow (h : 0 < t.widthOf r) (i : Nat) : (t.rangeRow r i).head? = some (t.key r i) := by
  rw [rangeRow, List.head?_map, List.head?_range, if_neg (Nat.ne_of_gt h)]
  rfl

theorem getElem?_rangeRow_of_lt (i : Nat) (h : j < t.widthOf r) :
    (t.rangeRow r i)[j]? = some (t.value (r.offset i j)) := by
  rw [rangeRow, List.getElem?_map, List.getElem?_range h]
  rfl

theorem getElem?_rangeRow_of_le (i : Nat) (h : t.widthOf r ≤ j) : (t.rangeRow r i)[j]? = none :=
  List.getElem?_eq_none (by rwa [rangeRow, List.length_map, List.length_range])

end Table

namespace Formula

variable {ctx : Context} {t : Table} {r : RangeAddress} {needle : Value} {i : Nat}

theorem findRow?_approximate (hwidth : 0 < t.widthOf r) (hneedle : needle.isNaN = false)
    (hkeys : t.Ascending r .le) :
    findRow? true needle (t.rangeRows r) =
      ((List.range (t.heightOf r)).filter fun i => (t.key r i).holds .le needle).getLast?.map (t.rangeRow r) := by
  have hafter {i j : Nat} (hij : i ≤ j) (hj : j < t.heightOf r) (hgt : (!(t.key r i).holds .gt needle) = false) :
      (t.key r j).holds .le needle = false :=
    hkeys.not_le_of_gt hneedle hij hj (by simpa using hgt)
  have hprefix := filter_takeWhile (l := List.range (t.heightOf r))
    (fun i hi => hafter (Nat.le_refl i) (List.mem_range.mp hi))
    (List.pairwise_lt_range.imp_of_mem fun _ hj hij => hafter (Nat.le_of_lt hij) (List.mem_range.mp hj))
  rw [← hprefix, ← List.getLast?_map, Table.rangeRows_eq_map, findRow?, if_pos rfl]
  change ((((List.range (t.heightOf r)).map (t.rangeRow r)).takeWhile _).filter _).getLast? = _
  rw [List.takeWhile_map, List.filter_map]
  simp only [Function.comp_def, Table.head?_rangeRow hwidth, Option.any_some]

theorem findRow?_of_isFloor (hwidth : 0 < t.widthOf r) (hneedle : needle.isNaN = false)
    (hkeys : t.Ascending r .le) (hi : t.IsFloor r needle i) :
    findRow? true needle (t.rangeRows r) = some (t.rangeRow r i) := by
  rw [findRow?_approximate hwidth hneedle hkeys, getLast?_filter_range hi.lt hi.le hi.last]
  rfl

theorem findRow?_of_forall (hwidth : 0 < t.widthOf r) (hneedle : needle.isNaN = false)
    (hkeys : t.Ascending r .le) (hnone : ∀ i < t.heightOf r, (t.key r i).holds .le needle = false) :
    findRow? true needle (t.rangeRows r) = none := by
  have hempty : ((List.range (t.heightOf r)).filter fun i => (t.key r i).holds .le needle) = [] :=
    List.filter_eq_nil_iff.mpr fun i hi => Bool.eq_false_iff.mp (hnone i (List.mem_range.mp hi))
  rw [findRow?_approximate hwidth hneedle hkeys, hempty]
  rfl

/-- An exact lookup finds the first row with the needle for its key. -/
theorem findRow?_exact (hwidth : 0 < t.widthOf r) (hi : i < t.heightOf r)
    (heq : (t.key r i).holds .eq needle = true) (hfirst : ∀ k < i, (t.key r k).holds .eq needle = false) :
    findRow? false needle (t.rangeRows r) = some (t.rangeRow r i) := by
  have hfound : (List.range (t.heightOf r)).find? (fun i => (t.key r i).holds .eq needle) = some i :=
    List.find?_range_eq_some.mpr ⟨heq, List.mem_range.mpr hi, fun k hk => by rw [hfirst k hk]; rfl⟩
  rw [Table.rangeRows_eq_map, findRow?, if_neg Bool.false_ne_true]
  change ((List.range (t.heightOf r)).map (t.rangeRow r)).find? _ = _
  rw [List.find?_map]
  simp only [Function.comp_def, Table.head?_rangeRow hwidth, Option.any_some, hfound, Option.map_some]

/-- What the arguments after the column say about whether a lookup is approximate. -/
inductive Mode (ctx : Context) : Bool → List Expr → Prop
  | absent : Mode ctx false []
  | boolean {e : Expr} {b : Bool} (h : eval ctx e = .boolean b) : Mode ctx b [e]
  | number {e : Expr} {x : Double} (h : eval ctx e = .number x) : Mode ctx (!x.isZero) [e]

def lookup (name : String) (needle : Expr) (corner opposite : String) (column : Expr) (mode : List Expr) :
    Expr :=
  .call name (needle :: .range corner opposite :: column :: mode)

section
variable {name corner opposite : String} {needle column : Expr} {mode : List Expr} {approximate : Bool}
  {x : Double}

theorem Mode.arguments (h : Mode ctx approximate mode) :
    evalArguments ctx mode = [] ∧ approximate = false ∨
      ∃ m, evalArguments ctx mode = [m] ∧ m.required ctx >>= truth = .ok approximate := by
  cases h with
  | absent => exact .inl ⟨rfl, rfl⟩
  | boolean h =>
    refine .inr ⟨_, rfl, ?_⟩
    rw [required_asArgument, h]
    rfl
  | number h =>
    refine .inr ⟨_, rfl, ?_⟩
    rw [required_asArgument, h]
    rfl

theorem applyFunction_vlookup {a rows column : Argument} {mode : List Argument} {v : Value}
    {cells : List (List Value)} (hneedle : a.required ctx = .ok v) (hrows : rows.rows ctx = .ok cells)
    (hcolumn : column.number ctx = .ok x) (hfinite : x.isFinite = true) (hone : 1.0 ≤ x.toFloat)
    (hmode : mode = [] ∧ approximate = false ∨
      ∃ m, mode = [m] ∧ m.required ctx >>= truth = .ok approximate) :
    applyFunction ctx .vlookup (a :: rows :: column :: mode) =
      match (findRow? approximate v cells).bind fun row => row[min maxOrdinal (Number.wholePart x.toFloat) - 1]? with
      | some v => .ok v
      | none => .error .invalidRef := by
  have hposition : (Number.toIntWithin 0 maxOrdinal x.toFloat).toNat = min maxOrdinal (Number.wholePart x.toFloat) := by
    rw [Number.toIntWithin_of_one_le hfinite hone, Int.toNat_natCast]
  have hpos : min maxOrdinal (Number.wholePart x.toFloat) ≠ 0 := by
    have := (Number.wholePart_pos hfinite hone).2
    have : 0 < maxOrdinal := by decide
    omega
  have hstart := Number.not_lt_one hfinite hone
  obtain ⟨rfl, rfl⟩ | ⟨m, rfl, hm⟩ := hmode
  · simp only [applyFunction, hneedle, hrows, hcolumn, hposition, bind, Except.bind, if_neg hstart, if_neg hpos,
      pure, Except.pure]
    rfl
  · obtain ⟨b, hb, htruth⟩ := bind_eq_ok.mp hm
    simp only [applyFunction, hneedle, hrows, hcolumn, hposition, hb, htruth, bind, Except.bind, if_neg hstart,
      if_neg hpos, pure, Except.pure]
    rfl

/-- The column is cut off after the point, and at the greatest number that a column can have. -/
theorem eval_lookup (hname : Function.ofName? name = some .vlookup) (hr : ctx.range corner opposite = .ok r)
    (hneedle : (eval ctx needle).isError = false) (hcolumn : eval ctx column = .number x)
    (hfinite : x.isFinite = true) (hone : 1.0 ≤ x.toFloat) (hmode : Mode ctx approximate mode) :
    eval ctx (lookup name needle corner opposite column mode) =
      ((findRow? approximate (eval ctx needle) (ctx.table.rangeRows r)).bind fun row =>
        row[min maxOrdinal (Number.wholePart x.toFloat) - 1]?).getD (.error .invalidRef) := by
  have haccepts : Function.vlookup.arity.accepts (needle :: .range corner opposite :: column :: mode).length := by
    cases hmode <;> rfl
  have hfound := (required_asArgument needle).trans (present_eq_ok hneedle)
  have hrows : ((Expr.range corner opposite).asArgument (eval ctx (.range corner opposite))).rows ctx =
      .ok (ctx.table.rangeRows r) := by
    rw [Expr.asArgument, Argument.rows, hr, Except.map]
  have hnumber : (column.asArgument (eval ctx column)).number ctx = .ok x := by
    rw [Argument.number, required_asArgument, hcolumn]
    rfl
  have hvalue := applyFunction_vlookup hfound hrows hnumber hfinite hone hmode.arguments
  rw [lookup, eval_call hname haccepts, evalArguments, evalArguments, evalArguments, hvalue]
  cases (findRow? approximate (eval ctx needle) (ctx.table.rangeRows r)).bind _ <;> rfl

theorem eval_lookup_found (hname : Function.ofName? name = some .vlookup)
    (hr : ctx.range corner opposite = .ok r) (hneedle : (eval ctx needle).isError = false)
    (hcolumn : eval ctx column = .number x) (hfinite : x.isFinite = true) (hone : 1.0 ≤ x.toFloat)
    (hmode : Mode ctx approximate mode)
    (hfound : findRow? approximate (eval ctx needle) (ctx.table.rangeRows r) = some (ctx.table.rangeRow r i)) :
    (Number.wholePart x.toFloat ≤ ctx.table.widthOf r →
      eval ctx (lookup name needle corner opposite column mode) =
        ctx.table.value (r.offset i (Number.wholePart x.toFloat - 1))) ∧
    (ctx.table.widthOf r < Number.wholePart x.toFloat → ctx.table.widthOf r < maxOrdinal →
      eval ctx (lookup name needle corner opposite column mode) = .error .invalidRef) := by
  have hpos := (Number.wholePart_pos hfinite hone).2
  have hwidth := ctx.table.widthOf_le_maxOrdinal (Context.range_eq_ok.mp hr).1
  rw [eval_lookup hname hr hneedle hcolumn hfinite hone hmode, hfound, Option.bind_some]
  constructor
  · intro hle
    rw [Nat.min_eq_right (hle.trans hwidth), Table.getElem?_rangeRow_of_lt i (by omega), Option.getD_some]
  · intro hpast hword
    rw [Table.getElem?_rangeRow_of_le i (by omega), Option.getD_none]

/-- An approximate lookup among ascending keys has its value from the last row of the whole range whose
key is the needle or below it. It fails if there is no such row, and past the columns that the range has
in the table. If the keys ascend strictly and one of them is the needle, the exact lookup has the same
value. -/
theorem eval_lookup_ascending (hname : Function.ofName? name = some .vlookup)
    (hr : ctx.range corner opposite = .ok r) (hneedle : (eval ctx needle).isError = false)
    (hneedlenan : (eval ctx needle).isNaN = false) (hkeys : ctx.table.Ascending r .le)
    (hcolumn : eval ctx column = .number x) (hfinite : x.isFinite = true) (hone : 1.0 ≤ x.toFloat)
    (hmode : Mode ctx true mode) :
    (∀ i, ctx.table.IsFloor r (eval ctx needle) i →
      (Number.wholePart x.toFloat ≤ ctx.table.widthOf r →
        eval ctx (lookup name needle corner opposite column mode) =
          ctx.table.value (r.offset i (Number.wholePart x.toFloat - 1))) ∧
      (ctx.table.widthOf r < Number.wholePart x.toFloat → ctx.table.widthOf r < maxOrdinal →
        eval ctx (lookup name needle corner opposite column mode) = .error .invalidRef)) ∧
    ((∀ i < ctx.table.heightOf r, (ctx.table.key r i).holds .le (eval ctx needle) = false) →
      eval ctx (lookup name needle corner opposite column mode) = .error .invalidRef) ∧
    (ctx.table.Ascending r .lt →
      (∃ i < ctx.table.heightOf r, (ctx.table.key r i).holds .eq (eval ctx needle) = true) →
      ∀ exact, Mode ctx false exact → eval ctx (lookup name needle corner opposite column exact) =
        eval ctx (lookup name needle corner opposite column mode)) := by
  obtain ⟨hparse, hstart⟩ := Context.range_eq_ok.mp hr
  have hwidth := Table.widthOf_pos hstart (RangeAddress.covers_start hparse)
  refine ⟨fun i hi => ?_, fun hnone => ?_, fun hstrict hequal exact hexact => ?_⟩
  · exact eval_lookup_found hname hr hneedle hcolumn hfinite hone hmode
      (findRow?_of_isFloor hwidth hneedlenan hkeys hi)
  · rw [eval_lookup hname hr hneedle hcolumn hfinite hone hmode,
      findRow?_of_forall hwidth hneedlenan hkeys hnone]
    rfl
  · obtain ⟨i, hi, heq⟩ := hequal
    obtain ⟨hfloor, hfirst⟩ := hstrict.eq_needle hneedlenan hi heq
    rw [eval_lookup hname hr hneedle hcolumn hfinite hone hexact,
      eval_lookup hname hr hneedle hcolumn hfinite hone hmode, findRow?_exact hwidth hi heq hfirst,
      findRow?_of_isFloor hwidth hneedlenan hkeys hfloor]

end

/-- Prices from a weight on; the first one is charged for any weight. -/
def tariff : Table :=
  ⟨[⟨"from", .number, [.missing, .number 1.0, .number 2.5, .number 10.0]⟩,
    ⟨"price", .number, [.number 3.0, .number 5.0, .number 8.0, .number 20.0]⟩], 4⟩

theorem ascending_tariff : tariff.Ascending ⟨⟨0, 0⟩, ⟨8, 2⟩⟩ .lt where
  isNaN := by
    have hnan : ∀ i < 4, (tariff.key ⟨⟨0, 0⟩, ⟨8, 2⟩⟩ i).isNaN = false := by decide +kernel
    exact hnan
  step i hi := by
    have hstep : ∀ i < 3, (tariff.key ⟨⟨0, 0⟩, ⟨8, 2⟩⟩ i).holds .lt (tariff.key ⟨⟨0, 0⟩, ⟨8, 2⟩⟩ (i + 1)) = true := by
      decide +kernel
    exact hstep i (Nat.lt_of_succ_lt_succ hi)

theorem isFloor_tariff : tariff.IsFloor ⟨⟨0, 0⟩, ⟨8, 2⟩⟩ (.number 2.5) 2 where
  lt := by decide
  le := by decide +kernel
  last := by
    have hlast : ∀ k < 4, 2 < k → (tariff.key ⟨⟨0, 0⟩, ⟨8, 2⟩⟩ k).holds .le (.number 2.5) = false := by
      decide +kernel
    exact hlast

/-- The price of a weight for which there is one, with either kind of lookup, and past the columns of the
tariff. -/
theorem eval_lookup_tariff :
    Context.range ⟨tariff, none⟩ "A1" "C9" = .ok ⟨⟨0, 0⟩, ⟨8, 2⟩⟩ ∧
    eval ⟨tariff, none⟩ (lookup "VLOOKUP" (.number 2.5) "A1" "C9" (.number 2.9) [.boolean true]) = .number 8.0 ∧
    eval ⟨tariff, none⟩ (lookup "VLOOKUP" (.number 2.5) "A1" "C9" (.number 2.9) [.number 0.0]) = .number 8.0 ∧
    eval ⟨tariff, none⟩ (lookup "VLOOKUP" (.number 2.5) "A1" "C9" (.number 3.0) [.boolean true]) =
      .error .invalidRef := by
  have hname : Function.ofName? "VLOOKUP" = some .vlookup := by decide +kernel
  have hr : Context.range ⟨tariff, none⟩ "A1" "C9" = .ok ⟨⟨0, 0⟩, ⟨8, 2⟩⟩ := by decide +kernel
  have hmode : Mode ⟨tariff, none⟩ true [.boolean true] := .boolean rfl
  have hzero : (!(0.0 : Double).isZero) = false := by decide +kernel
  have hexact : Mode ⟨tariff, none⟩ false [.number 0.0] := hzero ▸ .number rfl
  have hneedle : (eval ⟨tariff, none⟩ (.number 2.5)).isError = false := rfl
  have hwithin := eval_lookup_ascending hname hr hneedle (by decide +kernel) ascending_tariff.le
    (rfl : eval ⟨tariff, none⟩ (.number 2.9) = .number 2.9) (by decide +kernel) (by decide +kernel) hmode
  have hpast := eval_lookup_ascending hname hr hneedle (by decide +kernel) ascending_tariff.le
    (rfl : eval ⟨tariff, none⟩ (.number 3.0) = .number 3.0) (by decide +kernel) (by decide +kernel) hmode
  have hprice := (hwithin.1 2 isFloor_tariff).1 (by decide +kernel)
  refine ⟨hr, hprice, ?_, (hpast.1 2 isFloor_tariff).2 (by decide +kernel) (by decide +kernel)⟩
  have hsame := hwithin.2.2 ascending_tariff ⟨2, by decide +kernel, by decide +kernel⟩ [.number 0.0] hexact
  exact hsame.trans hprice

end Formula

end Tabular
