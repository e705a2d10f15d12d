import Mathlib.Data.List.DropRight
import Mathlib.Order.Nat
import Tabular.Proofs.Formula.Soundness
import Tabular.Proofs.Text.Case

/-!
# What is derived is read

A parser reads a phrase off the front of a list of tokens when nothing behind the phrase could be
taken for a part of it. By induction on derivations, the parsers of a level read every phrase that
nests no deeper than the level. With soundness this makes the parser of formulas decide the grammar,
and every list of tokens denotes at most one expression.
-/
namespace Tabular.Formula

def BinaryOp.precedence : BinaryOp → Nat
  | compare _ => 0
  | add => 1
  | subtract => 1
  | multiply => 2
  | divide => 2
  | power => 3

def Layer.precedence : Layer → Nat
  | comparison => 0
  | term => 1
  | factor => 2

theorem Layer.accepts_iff {l : Layer} {op : BinaryOp} :
    l.accepts op = true ↔ op.precedence = l.precedence := by
  cases l <;> cases op <;> first | decide | simp [accepts, precedence, BinaryOp.precedence,
    BinaryOp.isComparison, BinaryOp.isTerm, BinaryOp.isFactor]

/-- Tokens that cannot continue a phrase whose operators bind at least as tight as given. -/
def Follows (precedence : Nat) : List Token → Prop
  | .operator op :: _ => op.precedence < precedence
  | .openParen :: _ => False
  | .colon :: _ => False
  | _ => True

theorem Follows.mono {m n : Nat} (h : m ≤ n) {rest : List Token} (hr : Follows m rest) :
    Follows n rest := by
  unfold Follows at hr ⊢
  split at hr <;> first | exact Nat.lt_of_lt_of_le hr h | exact hr

/-- A text of letters alone is no cell. -/
theorem looksLikeCell_eq_false {s : String} (h : ∀ c ∈ s.toList, c.isAlpha = true) :
    looksLikeCell s = false := by
  have hdigits : s.toList.dropWhile Char.isAlpha = [] := List.dropWhile_eq_nil_iff.mpr h
  simp [looksLikeCell, splitCell?, hdigits]

theorem isAlpha_of_sameUpToCase {s : String} {b : Bool}
    (h : Text.sameUpToCase s (Value.booleanText b) = true) : ∀ c ∈ s.toList, c.isAlpha = true := by
  have hmap : s.toList.map Char.toLower = (Value.booleanText b).toList.map Char.toLower := by
    simpa [Text.sameUpToCase] using h
  intro c hc
  have hmem : c.toLower ∈ (Value.booleanText b).toList.map Char.toLower :=
    hmap ▸ List.mem_map_of_mem hc
  have hall : ((Value.booleanText b).toList.map Char.toLower).all Char.isAlpha = true := by
    cases b <;> decide
  rw [← Text.isAlpha_toLower]
  exact List.all_eq_true.mp hall _ hmem

/-- A cell is no truth value. -/
theorem sameUpToCase_eq_false {s : String} (b : Bool) (h : looksLikeCell s = true) :
    Text.sameUpToCase s (Value.booleanText b) = false := by
  cases hb : Text.sameUpToCase s (Value.booleanText b) with
  | false => rfl
  | true => simp [looksLikeCell_eq_false (isAlpha_of_sameUpToCase hb)] at h

theorem named_boolean {name : String} {b : Bool} {rest : List Token}
    (h : Text.sameUpToCase name (Value.booleanText b) = true) :
    named name rest = .ok (.boolean b, rest) := by
  cases b with
  | true => exact if_pos h
  | false =>
    have htrue : Text.sameUpToCase name "TRUE" = false := by
      have hf : name.toList.map Char.toLower = "FALSE".toList.map Char.toLower := by
        simpa [Text.sameUpToCase, Value.booleanText] using h
      rw [Text.sameUpToCase, hf]
      rfl
    unfold named
    rw [htrue]
    exact if_pos h

theorem named_cell {address : String} {rest : List Token} (h : looksLikeCell address = true)
    (hr : Follows 4 rest) : named address rest = .ok (.cell address, rest) := by
  have ht : Text.sameUpToCase address "TRUE" = false := sameUpToCase_eq_false true h
  have hf : Text.sameUpToCase address "FALSE" = false := sameUpToCase_eq_false false h
  unfold named
  simp only [ht, hf, h, Bool.false_eq_true, Bool.not_true, if_false]
  split
  · exact hr.elim
  · rfl

theorem named_range {corner opposite : String} {rest : List Token}
    (hc : looksLikeCell corner = true) (ho : looksLikeCell opposite = true) :
    named corner (.colon :: .name opposite :: rest) = .ok (.range corner opposite, rest) := by
  have ht : Text.sameUpToCase corner "TRUE" = false := sameUpToCase_eq_false true hc
  have hf : Text.sameUpToCase corner "FALSE" = false := sameUpToCase_eq_false false hc
  simp [named, ht, hf, hc, ho]

section
variable {w : Weights} {n : Nat} {ts rest : List Token} {e : Expr}

theorem argumentList_last {expression : Parser}
    (h : expression ts = .ok (e, .closeParen :: rest)) :
    argumentList expression ts = .ok ([e], .closeParen :: rest) := by
  rw [argumentList, h]
  rfl

theorem argumentList_comma {expression : Parser} {us : List Token} {es : List Expr}
    (h : expression (ts ++ .comma :: us) = .ok (e, .comma :: us))
    (hs : argumentList expression us = .ok (es, rest)) :
    argumentList expression (ts ++ .comma :: us) = .ok (e :: es, rest) := by
  have hlt : us.length < (ts ++ .comma :: us).length := by simp; omega
  rw [argumentList, h]
  simp only [bind, Except.bind, if_pos hlt, hs]
  rfl

theorem call_arguments {f : String} {expression : Parser} {es : List Expr}
    (hts : ∃ t us, ts = t :: us ∧ t ≠ .closeParen)
    (h : argumentList expression (ts ++ .closeParen :: rest) = .ok (es, .closeParen :: rest)) :
    call expression f (ts ++ .closeParen :: rest) = .ok (.call f es, rest) := by
  obtain ⟨t, us, rfl, ht⟩ := hts
  unfold call
  split
  next heq =>
    simp only [List.cons_append, List.cons.injEq] at heq
    exact absurd heq.1 ht
  next =>
    rw [h]
    rfl

theorem primary_name {name : String} {expression : Parser} (hr : Follows 4 rest) :
    primary expression (.name name :: rest) = named name rest := by
  cases rest with
  | nil => rfl
  | cons t us => cases t <;> first | rfl | exact hr.elim

theorem primary_paren {expression : Parser}
    (h : expression (ts ++ .closeParen :: rest) = .ok (e, .closeParen :: rest)) :
    primary expression (.openParen :: (ts ++ .closeParen :: rest)) = .ok (e, rest) := by
  simp only [primary, h]
  rfl

/-- A phrase without a sign is read as one. -/
theorem signed_primary {nested unsigned : Parser} (h : Derives w n .primary ts e) :
    signed nested unsigned (ts ++ rest) = unsigned (ts ++ rest) := by
  cases h <;> rfl

theorem raised_power {nested operand : Parser} {us : List Token} {a b : Expr}
    (ha : operand ts = .ok (a, .operator .power :: us)) (hb : nested us = .ok (b, rest)) :
    raised nested operand ts = .ok (.binary .power a b, rest) := by
  simp only [raised, ha, bind, Except.bind, hb]
  rfl

theorem raised_of_follows {nested operand : Parser} (h : operand ts = .ok (e, rest))
    (hr : Follows 3 rest) : raised nested operand ts = .ok (e, rest) := by
  unfold raised
  rw [h]
  cases rest with
  | nil => rfl
  | cons t us =>
    cases t with
    | operator op => cases op <;> first | rfl | exact absurd hr (Nat.lt_irrefl 3)
    | _ => rfl

theorem chained_operand {operand : Parser} {next : Expr → Parser}
    (h : operand ts = .ok (e, rest)) : chained operand next ts = next e rest := by
  rw [chained, h]
  rfl

theorem chain_operator {l : Layer} {operand : Parser} {next : Expr → Parser} {op : BinaryOp}
    {left right : Expr} (hop : l.accepts op = true) (h : operand ts = .ok (right, rest)) :
    chain l.accepts operand next left (.operator op :: ts) = next (.binary op left right) rest := by
  rw [chain, if_pos hop, h]
  rfl

theorem chain_of_follows {l : Layer} {operand : Parser} {next : Expr → Parser} {left : Expr}
    (hr : Follows l.precedence rest) : chain l.accepts operand next left rest = .ok (left, rest) := by
  unfold chain
  split
  next op _ =>
    rw [if_neg]
    rw [Layer.accepts_iff]
    exact Nat.ne_of_lt hr
  next => rfl

end

/-- The parsers for `n` levels of nesting read the tokens as a phrase that denotes the expression,
whatever follows it. After a chain they are where the chain could go on. -/
def ReadWithin (n : Nat) : Phrase → List Token → Expr → Prop
  | .chain l k, ts, e => k < n ∧ ∀ rest, Follows (l.precedence + 1) rest →
      (Level.ofNesting n).whole l (ts ++ rest) =
        (Level.ofNesting (n - k)).continuation l e rest
  | .layer l, ts, e => ∀ rest, Follows l.precedence rest →
      (Level.ofNesting n).whole l (ts ++ rest) = .ok (e, rest)
  | .power, ts, e => ∀ rest, Follows 3 rest →
      (Level.ofNesting n).power (ts ++ rest) = .ok (e, rest)
  | .unary, ts, e => ∀ rest, Follows 4 rest →
      (Level.ofNesting n).unary (ts ++ rest) = .ok (e, rest)
  | .primary, ts, e => ∀ rest, Follows 4 rest →
      primary (Level.ofNesting (n - 1)).comparison (ts ++ rest) = .ok (e, rest)
  | .arguments f, ts, e => ∃ es, e = .call f es ∧ ∀ rest,
      argumentList (Level.ofNesting (n - 1)).comparison (ts ++ .closeParen :: rest) =
        .ok (es, .closeParen :: rest)

namespace ReadWithin

variable {n k : Nat} {l : Layer} {ts us : List Token} {e a b : Expr}

theorem operand (h : ReadWithin n l.operand ts e) {rest : List Token}
    (hr : Follows (l.precedence + 1) rest) :
    (Level.ofNesting n).operand l (ts ++ rest) = .ok (e, rest) := by
  cases l <;> exact h rest hr

theorem boolean {name : String} {b : Bool} (h : Text.sameUpToCase name (Value.booleanText b) = true) :
    ReadWithin n .primary [.name name] (.boolean b) := by
  intro rest hr
  exact (primary_name hr).trans (named_boolean h)

theorem cell {address : String} (h : looksLikeCell address = true) :
    ReadWithin n .primary [.name address] (.cell address) := by
  intro rest hr
  exact (primary_name hr).trans (named_cell h hr)

theorem call {f : String} (hts : ∃ t us, ts = t :: us ∧ t ≠ .closeParen)
    (h : ReadWithin n (.arguments f) ts e) :
    ReadWithin n .primary (.name f :: .openParen :: (ts ++ [.closeParen])) e := by
  obtain ⟨es, rfl, hread⟩ := h
  intro rest hr
  rw [List.cons_append, List.cons_append, List.append_assoc]
  exact call_arguments hts (hread rest)

theorem lastArgument {f : String} (h : ReadWithin (n - 1) (.layer .comparison) ts e) :
    ReadWithin n (.arguments f) ts (.call f [e]) :=
  ⟨_, rfl, fun _ => argumentList_last (h _ trivial)⟩

theorem argument {f : String} {es : List Expr} (h : ReadWithin (n - 1) (.layer .comparison) ts e)
    (hs : ReadWithin n (.arguments f) us (.call f es)) :
    ReadWithin n (.arguments f) (ts ++ .comma :: us) (.call f (e :: es)) := by
  obtain ⟨_, heq, hread⟩ := hs
  cases heq
  refine ⟨_, rfl, fun rest => ?_⟩
  rw [List.append_assoc]
  exact argumentList_comma (h _ trivial) (hread rest)

theorem paren (h : ReadWithin (n - 1) (.layer .comparison) ts e) :
    ReadWithin n .primary (.openParen :: (ts ++ [.closeParen])) e := by
  intro rest _
  rw [List.cons_append, List.append_assoc]
  exact primary_paren (h _ trivial)

theorem unsigned {w : Weights} {m : Nat} (hd : Derives w m .primary ts e)
    (h : ReadWithin (n + 1) .primary ts e) : ReadWithin (n + 1) .unary ts e := by
  intro rest hr
  rw [Level.ofNesting, Level.unary_above, signed_primary hd]
  exact h rest hr

theorem minus (h : ReadWithin n .unary ts e) :
    ReadWithin (n + 1) .unary (.operator .subtract :: ts) (.unary .minus e) := by
  intro rest hr
  rw [Level.ofNesting, Level.unary_above, List.cons_append, signed, h rest hr]
  rfl

theorem plus (h : ReadWithin n .unary ts e) :
    ReadWithin (n + 1) .unary (.operator .add :: ts) (.unary .plus e) := by
  intro rest hr
  rw [Level.ofNesting, Level.unary_above, List.cons_append, signed, h rest hr]
  rfl

theorem unraised (h : ReadWithin (n + 1) .unary ts e) : ReadWithin (n + 1) .power ts e := by
  intro rest hr
  exact raised_of_follows (h rest (hr.mono (Nat.le_succ 3))) hr

theorem raised (ha : ReadWithin (n + 1) .unary ts a) (hb : ReadWithin n .power us b) :
    ReadWithin (n + 1) .power (ts ++ .operator .power :: us) (.binary .power a b) := by
  intro rest hr
  rw [List.append_assoc]
  exact raised_power (ha _ (Nat.lt_succ_self 3)) (hb rest hr)

theorem firstOperand (h : ReadWithin (n + 1) l.operand ts e) :
    ReadWithin (n + 1) (.chain l 0) ts e := by
  refine ⟨Nat.succ_pos n, fun rest hr => ?_⟩
  rw [Nat.sub_zero, Level.ofNesting, Level.whole_above]
  exact chained_operand (h.operand hr)

theorem operator {op : BinaryOp} (hop : l.accepts op = true) (hk : k + 1 < n)
    (ha : ReadWithin n (.chain l k) ts a) (hb : ReadWithin (n - (k + 1)) l.operand us b) :
    ReadWithin n (.chain l (k + 1)) (ts ++ .operator op :: us) (.binary op a b) := by
  obtain ⟨-, hread⟩ := ha
  refine ⟨hk, fun rest hr => ?_⟩
  have hfollows : Follows (l.precedence + 1) (.operator op :: (us ++ rest)) :=
    Nat.lt_succ_of_le (Nat.le_of_eq (Layer.accepts_iff.mp hop))
  rw [List.append_assoc, List.cons_append, hread _ hfollows]
  -- behind `k` operators the parser of the chain is `k` levels further down
  rw [show n - k = n - (k + 1) + 1 by omega, Level.ofNesting, Level.continuation_above]
  exact chain_operator hop (hb.operand hr)

theorem layer (h : ReadWithin n (.chain l k) ts e) : ReadWithin n (.layer l) ts e := by
  obtain ⟨hk, hread⟩ := h
  obtain ⟨d, hd⟩ : ∃ d, n - k = d + 1 := ⟨n - k - 1, by omega⟩
  intro rest hr
  rw [hread rest (hr.mono (Nat.le_succ _)), hd, Level.ofNesting, Level.continuation_above]
  exact chain_of_follows hr

end ReadWithin

theorem Derives.readWithin {m n : Nat} {p : Phrase} {ts : List Token} {e : Expr}
    (h : Derives .nesting m p ts e) (hmn : m ≤ n) : ReadWithin n p ts e := by
  induction h generalizing n with
  | number x => exact fun _ _ => rfl
  | text s => exact fun _ _ => rfl
  | boolean b hb => exact .boolean hb
  | cell ha => exact .cell ha
  | range hc ho => exact fun _ _ => named_range hc ho
  | emptyCall f => exact fun _ _ => rfl
  | call h ih => exact .call h.tokens_eq_cons (ih hmn)
  | lastArgument h ih => exact .lastArgument (ih (Nat.le_sub_one_of_lt hmn))
  | argument h hs ih ihs =>
    obtain ⟨hm, hn⟩ := Nat.max_le.mp hmn
    exact .argument (ih (Nat.le_sub_one_of_lt hm)) (ihs hn)
  | paren h ih => exact .paren (ih (Nat.le_sub_one_of_lt hmn))
  | unsigned h ih =>
    obtain ⟨n, rfl⟩ := Nat.exists_eq_add_one.mpr (h.one_le.trans hmn)
    exact .unsigned h (ih hmn)
  | minus h ih =>
    obtain ⟨n, rfl⟩ := Nat.exists_eq_add_one.mpr (Nat.lt_of_lt_of_le (Nat.succ_pos _) hmn)
    exact .minus (ih (Nat.le_of_succ_le_succ hmn))
  | plus h ih =>
    obtain ⟨n, rfl⟩ := Nat.exists_eq_add_one.mpr (Nat.lt_of_lt_of_le (Nat.succ_pos _) hmn)
    exact .plus (ih (Nat.le_of_succ_le_succ hmn))
  | unraised h ih =>
    obtain ⟨n, rfl⟩ := Nat.exists_eq_add_one.mpr (h.one_le.trans hmn)
    exact .unraised (ih hmn)
  | raised ha hb iha ihb =>
    obtain ⟨hm, hn⟩ := Nat.max_le.mp hmn
    obtain ⟨n, rfl⟩ := Nat.exists_eq_add_one.mpr (Nat.lt_of_lt_of_le (Nat.succ_pos _) hn)
    exact .raised (iha hm) (ihb (Nat.le_of_succ_le_succ hn))
  | operand h ih =>
    obtain ⟨n, rfl⟩ := Nat.exists_eq_add_one.mpr (h.one_le.trans hmn)
    exact .firstOperand (ih hmn)
  | operator hop ha hb iha ihb =>
    obtain ⟨hm, hn⟩ := Nat.max_le.mp hmn
    have hone := hb.one_le
    simp only [Weights.nesting] at hn
    exact .operator hop (by omega) (iha hm) (ihb (by omega))
  | layer h ih => exact .layer (ih hmn)

/-- What is derived within the bound is accepted. -/
theorem parse_of_derivesWithin {ts : List Token} {e : Expr}
    (h : DerivesWithin maxNesting (.layer .comparison) ts e) : parse ts = .ok e := by
  obtain ⟨d, hd, h⟩ := h
  have hread : (Level.ofNesting maxNesting).comparison (ts ++ []) = .ok (e, []) :=
    h.readWithin hd [] trivial
  rw [List.append_nil] at hread
  obtain ⟨t, us, rfl, -⟩ := h.tokens_eq_cons
  simp only [parse, hread]

theorem parse_eq_ok_iff {ts : List Token} {e : Expr} :
    parse ts = .ok e ↔ DerivesWithin maxNesting (.layer .comparison) ts e :=
  ⟨derivesWithin_of_parse, parse_of_derivesWithin⟩

/-- A list of tokens denotes at most one expression, however deep it nests. -/
theorem Derives.unique {m n : Nat} {ts : List Token} {d e : Expr}
    (hd : Derives .nesting m (.layer .comparison) ts d)
    (he : Derives .nesting n (.layer .comparison) ts e) : d = e := by
  have h := hd.readWithin (Nat.le_max_left m n) [] trivial
  rw [he.readWithin (Nat.le_max_right m n) [] trivial] at h
  simpa using h.symm

/-- The parser accepts exactly what the grammar derives with no nesting deeper than the bound, and
it returns what the tokens denote. No list of tokens denotes two expressions, whether it is within
the bound or not. -/
theorem parse_decides_grammar (ts : List Token) :
    (∀ e, parse ts = .ok e ↔
      ∃ n ≤ maxNesting, Derives .nesting n (.layer .comparison) ts e) ∧
    ∀ m n d e, Derives .nesting m (.layer .comparison) ts d →
      Derives .nesting n (.layer .comparison) ts e → d = e :=
  ⟨fun _ => parse_eq_ok_iff, fun _ _ _ _ hd he => hd.unique he⟩

end Tabular.Formula
