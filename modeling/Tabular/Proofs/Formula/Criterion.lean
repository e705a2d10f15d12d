import Mathlib.Data.List.Basic
import Tabular.Proofs.Formula.Expr
import Tabular.Proofs.Value.Comparison

/-!
# Criteria divide cells

Criteria with one operand and comparisons that exclude each other are met by different cells. What is
equal to the operand or not is every cell that is no error, but blank cells are only compared with a
blank operand. What is less, equal or greater is every such cell if the operand is blank, and otherwise
every such cell of the category of the operand.
-/
namespace Tabular

section
variable {α : Type} {l : List α}

theorem countP_or_of_disjoint {p q : α → Bool} (h : ∀ a ∈ l, ¬(p a ∧ q a)) :
    l.countP (fun a => p a || q a) = l.countP p + l.countP q := by
  induction l with
  | nil => rfl
  | cons a l ih =>
    obtain ⟨ha, hl⟩ := List.forall_mem_cons.mp h
    rw [List.countP_cons, List.countP_cons, List.countP_cons, ih hl]
    cases hp : p a <;> cases hq : q a
    all_goals simp_all
    all_goals omega

/-- Conditions that exclude each other are counted one by one. -/
theorem sum_countP_of_disjoint {ps : List (α → Bool)}
    (h : ps.Pairwise fun p q => ∀ a ∈ l, ¬(p a ∧ q a)) :
    (ps.map fun p => l.countP p).sum = l.countP fun a => ps.any (· a) := by
  induction ps with
  | nil => simp
  | cons p ps ih =>
    obtain ⟨hp, hps⟩ := List.pairwise_cons.mp h
    have hrest : ∀ a ∈ l, ¬(p a ∧ ps.any (· a)) := by
      rintro a ha ⟨hpa, hany⟩
      obtain ⟨q, hq, hqa⟩ := List.any_eq_true.mp hany
      exact hp q hq a ha ⟨hpa, hqa⟩
    rw [List.map_cons, List.sum_cons, ih hps, ← countP_or_of_disjoint hrest]
    rfl

end

namespace Formula

namespace Criterion

variable {cells : List Value} {v w : Value} {op : Comparison} {s : String} {cs : List Char}

/-- What a comparison with nothing or something behind it compares with. -/
def operandBehind (cs : List Char) : Value := if cs = [] then .missing else operandOf cs

theorem isNaN_operandOf (cs : List Char) : (operandOf cs).isNaN = false := by
  unfold operandOf
  split
  next x hx => exact (Double.isNaN_ofFloat x).trans (Number.isNaN_of_parseFinite? hx)
  next => rfl

theorem isNaN_operandBehind (cs : List Char) : (operandBehind cs).isNaN = false := by
  unfold operandBehind
  split
  · rfl
  · exact isNaN_operandOf cs

theorem operandOf_cases (cs : List Char) :
    (∃ x, operandOf cs = .number x) ∨ ∃ s, operandOf cs = .text s := by
  unfold operandOf
  split
  · exact .inl ⟨_, rfl⟩
  · exact .inr ⟨_, rfl⟩

theorem isError_operandBehind (cs : List Char) : (operandBehind cs).isError = false := by
  unfold operandBehind
  split
  · rfl
  · obtain ⟨x, hx⟩ | ⟨s, hs⟩ := operandOf_cases cs
    · rw [hx]
      rfl
    · rw [hs]
      rfl

theorem operandBehind_eq_missing_iff {t : String} : operandBehind t.toList = .missing ↔ t = "" := by
  rw [operandBehind]
  split
  next hempty => exact iff_of_true rfl (String.toList_eq_nil_iff.mp hempty)
  next hsome =>
    refine iff_of_false (fun h => ?_) (mt String.toList_eq_nil_iff.mpr hsome)
    obtain ⟨x, hx⟩ | ⟨s, hs⟩ := operandOf_cases t.toList
    · cases hx.symm.trans h
    · cases hs.symm.trans h

theorem ofValue_of_splitComparison? (h : splitComparison? s.toList = some (op, cs)) :
    ofValue (.text s) = ⟨op, operandBehind cs⟩ := by
  unfold ofValue operandBehind
  dsimp only
  rw [h]
  cases cs <;> rfl

theorem splitComparison?_gt (h : cs.head? ≠ some '=') : splitComparison? ('>' :: cs) = some (.gt, cs) := by
  unfold splitComparison?
  split <;> simp_all

theorem splitComparison?_lt (h : cs.head? ≠ some '=') (h' : cs.head? ≠ some '>') :
    splitComparison? ('<' :: cs) = some (.lt, cs) := by
  unfold splitComparison?
  split <;> simp_all

/-- A text with a comparison in front is read as that comparison with the text, if the text does not
go on with another comparison. -/
theorem ofValue_symbol_append (op : Comparison) (t : String)
    (h : op = .lt ∨ op = .gt → t.toList.head? ≠ some '=')
    (h' : op = .lt → t.toList.head? ≠ some '>') :
    ofValue (.text (op.symbol ++ t)) = ⟨op, operandBehind t.toList⟩ := by
  refine ofValue_of_splitComparison? ?_
  rw [String.toList_append]
  cases op with
  | eq => rfl
  | ne => rfl
  | le => rfl
  | ge => rfl
  | lt => exact splitComparison?_lt (h (.inl rfl)) (h' rfl)
  | gt => exact splitComparison?_gt (h (.inr rfl))

theorem meets_iff {c : Criterion} :
    c.meets v = true ↔ (v = .missing → c.operand = .missing) ∧ v.holds c.op c.operand = true := by
  rw [meets]
  split
  next hblank =>
    rw [Bool.and_eq_true, Bool.not_eq_true', Value.isMissing_iff, Bool.eq_false_iff, ne_eq, Value.isMissing_iff] at hblank
    exact iff_of_false Bool.false_ne_true fun h => hblank.2 (h.1 hblank.1)
  next hcompared =>
    rw [Bool.and_eq_true, Bool.not_eq_true', Value.isMissing_iff, Bool.eq_false_iff, ne_eq, Value.isMissing_iff,
      not_and, not_not] at hcompared
    exact (and_iff_right hcompared).symm

/-- Whether a cell meets the criterion that a text stands for. -/
def isMet (s : String) (v : Value) : Bool := (ofValue (.text s)).meets v

/-- The criteria divide the cells of a kind among them. -/
structure Divide (criteria : List String) (cells : List Value) (kind : Value → Prop) [DecidablePred kind] :
    Prop where
  disjoint : criteria.Pairwise fun s t => ∀ v ∈ cells, ¬(isMet s v ∧ isMet t v)
  exhaustive : ∀ v ∈ cells, (∃ s ∈ criteria, isMet s v) ↔ kind v
  counts : (criteria.map fun s => cells.countP (isMet s)).sum = cells.countP kind

/-- Comparisons with one text that exclude each other divide the cells of which some of them holds. -/
theorem divide_of_excludes (ops : List Comparison) {t : String} {kind : Value → Prop} [DecidablePred kind]
    (hread : ∀ op ∈ ops, ofValue (.text (op.symbol ++ t)) = ⟨op, operandBehind t.toList⟩)
    (hnan : ∀ v ∈ cells, v.isNaN = false)
    (hexcludes : ops.Pairwise fun op op' => ∀ o, op.holds o = true → op'.holds o = false)
    (hkind : ∀ v ∈ cells, ((v = .missing → operandBehind t.toList = .missing) ∧
      ∃ op ∈ ops, v.holds op (operandBehind t.toList) = true) ↔ kind v) :
    Divide (ops.map (·.symbol ++ t)) cells kind := by
  have hmet {op : Comparison} (hop : op ∈ ops) (v : Value) : isMet (op.symbol ++ t) v = true ↔
      (v = .missing → operandBehind t.toList = .missing) ∧
        v.holds op (operandBehind t.toList) = true := by
    rw [isMet, hread op hop, meets_iff]
  have hdisjoint : (ops.map (·.symbol ++ t)).Pairwise fun s t => ∀ v ∈ cells, ¬(isMet s v ∧ isMet t v) := by
    refine List.pairwise_map.mpr (hexcludes.imp_of_mem fun {op op'} hop hop' hnot v hv => ?_)
    rw [hmet hop, hmet hop']
    rintro ⟨⟨-, hholds⟩, -, hholds'⟩
    have hfails := Value.not_holds_of_excludes (hnan v hv) (isNaN_operandBehind _) hnot hholds
    exact Bool.false_ne_true (hfails.symm.trans hholds')
  have hexhaustive : ∀ v ∈ cells, (∃ s ∈ ops.map (·.symbol ++ t), isMet s v) ↔ kind v := by
    intro v hv
    rw [← hkind v hv]
    constructor
    · rintro ⟨_, hs, hmeets⟩
      obtain ⟨op, hop, rfl⟩ := List.mem_map.mp hs
      obtain ⟨hblank, hholds⟩ := (hmet hop v).mp hmeets
      exact ⟨hblank, op, hop, hholds⟩
    · rintro ⟨hblank, op, hop, hholds⟩
      exact ⟨_, List.mem_map_of_mem hop, (hmet hop v).mpr ⟨hblank, hholds⟩⟩
  refine ⟨hdisjoint, hexhaustive, ?_⟩
  have hsum := sum_countP_of_disjoint (List.pairwise_map (f := isMet).mpr hdisjoint)
  rw [List.map_map] at hsum
  refine hsum.trans (List.countP_congr fun v hv => ?_)
  rw [List.any_map, List.any_eq_true, decide_eq_true_iff]
  exact hexhaustive v hv

end Criterion

theorem eval_countIf {ctx : Context} {name s : String} {range : Expr} {cells : List Value}
    (hname : Function.ofName? name = some .countIf)
    (hcells : (range.asArgument (eval ctx range)).cells ctx = .ok cells) :
    eval ctx (.call name [range, .text s]) = .ofNat (cells.countP (Criterion.isMet s)) := by
  rw [eval_call hname rfl, evalArguments_eq_map]
  simp only [List.map_cons, applyFunction, hcells, bind, Except.bind]
  rfl

/-- What is equal to a text or not is every cell that is no error, blank cells only if there is no
text. What is less than a text, equal or greater is every such cell if there is no text, and otherwise
every cell of the category that the text is read as. Counting cells counts those that meet the
criterion. -/
theorem countIf_divides {cells : List Value} (hnan : ∀ v ∈ cells, v.isNaN = false) (t : String) :
    Criterion.Divide ["=" ++ t, "<>" ++ t] cells
      (fun v => v.isError = false ∧ (v ≠ .missing ∨ t = "")) ∧
    (t.toList.head? ≠ some '=' → t.toList.head? ≠ some '>' →
      Criterion.Divide ["<" ++ t, "=" ++ t, ">" ++ t] cells fun v => v.isError = false ∧
        (t = "" ∨ v ≠ .missing ∧ v.category = (Criterion.operandOf t.toList).category)) ∧
    ∀ ctx name range, Function.ofName? name = some .countIf →
      (range.asArgument (eval ctx range)).cells ctx = .ok cells →
      ∀ s, eval ctx (.call name [range, .text s]) = .ofNat (cells.countP (Criterion.isMet s)) := by
  have hblank (v : Value) : (v = .missing → Criterion.operandBehind t.toList = .missing) ↔
      v ≠ .missing ∨ t = "" := by
    rw [Criterion.operandBehind_eq_missing_iff, imp_iff_not_or]
  have hoperand := Criterion.isNaN_operandBehind t.toList
  have hsound := Criterion.isError_operandBehind t.toList
  refine ⟨?_, fun heq hgt => ?_, fun ctx name range hname hcells s => eval_countIf hname hcells⟩
  · refine Criterion.divide_of_excludes [.eq, .ne] (fun op hop => ?_) hnan ?_ fun v hv => ?_
    · refine Criterion.ofValue_symbol_append op t ?_ ?_ <;> rintro (rfl | rfl) <;> simp at hop
    · simp only [List.pairwise_cons]
      decide
    · rw [hblank, and_comm, ← Value.holds_eq_or_ne (hnan v hv) hoperand hsound]
      simp
  · refine Criterion.divide_of_excludes [.lt, .eq, .gt] (fun op hop => ?_) hnan ?_ fun v hv => ?_
    · exact Criterion.ofValue_symbol_append op t (fun _ => heq) fun _ => hgt
    · simp only [List.pairwise_cons]
      decide
    · have horder : (∃ op ∈ [.lt, .eq, .gt], v.holds op (Criterion.operandBehind t.toList) = true) ↔
          v.isError = false ∧ v.Comparable (Criterion.operandBehind t.toList) := by
        simpa using Value.holds_lt_or_eq_or_gt (hnan v hv) hoperand hsound
      rw [hblank, horder, and_left_comm, Value.Comparable, Criterion.operandBehind_eq_missing_iff]
      by_cases ht : t = ""
      · simp [ht]
      · rw [Criterion.operandBehind, if_neg (mt String.toList_eq_nil_iff.mp ht)]
        simp only [ht, or_false, false_or]
        tauto

/-- A column of numbers and a text, a blank, an error and a truth value among them. -/
def mixture : Table :=
  ⟨[⟨"entry", .mixed, [.number 1.0, .text "2", .missing, .number 2.0, .error .divByZero, .boolean true]⟩], 6⟩

/-- Of the cells of the mixture, two are numbers, of which one is two, and two more are no two. -/
theorem countIf_divides_mixture :
    ((∀ v ∈ mixture.rangeValues ⟨⟨0, 0⟩, ⟨5, 0⟩⟩, v.isNaN = false) ∧
      "2".toList.head? ≠ some '=' ∧ "2".toList.head? ≠ some '>' ∧
      Function.ofName? "CountIf" = some .countIf) ∧
    Criterion.Divide ["=2", "<>2"] (mixture.rangeValues ⟨⟨0, 0⟩, ⟨5, 0⟩⟩)
      (fun v => v.isError = false ∧ (v ≠ .missing ∨ "2" = "")) ∧
    Criterion.Divide ["<2", "=2", ">2"] (mixture.rangeValues ⟨⟨0, 0⟩, ⟨5, 0⟩⟩)
      (fun v => v.isError = false ∧ ("2" = "" ∨
        v ≠ .missing ∧ v.category = (Criterion.operandOf "2".toList).category)) ∧
    eval ⟨mixture, none⟩ (.call "CountIf" [.range "A1" "A6", .text "<2"]) = .ofNat 1 ∧
    eval ⟨mixture, none⟩ (.call "CountIf" [.range "A1" "A6", .text "=2"]) = .ofNat 1 ∧
    eval ⟨mixture, none⟩ (.call "CountIf" [.range "A1" "A6", .text "<>2"]) = .ofNat 3 := by
  have hnan : ∀ v ∈ mixture.rangeValues ⟨⟨0, 0⟩, ⟨5, 0⟩⟩, v.isNaN = false := by decide +kernel
  have heq : "2".toList.head? ≠ some '=' := by decide
  have hgt : "2".toList.head? ≠ some '>' := by decide
  have hname : Function.ofName? "CountIf" = some .countIf := by decide +kernel
  have hcells : (Argument.range "A1" "A6").cells ⟨mixture, none⟩ =
      .ok (mixture.rangeValues ⟨⟨0, 0⟩, ⟨5, 0⟩⟩) := by decide +kernel
  obtain ⟨hdivide, horder, hcount⟩ := countIf_divides hnan "2"
  have hcounts := hcount ⟨mixture, none⟩ "CountIf" (.range "A1" "A6") hname hcells
  refine ⟨⟨hnan, heq, hgt, hname⟩, hdivide, horder heq hgt, ?_, ?_, ?_⟩
  all_goals
    rw [hcounts]
    decide +kernel

end Formula

end Tabular
