import Tabular.Formula.Apply
import Tabular.Proofs.Formula.Alike
import Tabular.Proofs.Formula.Completeness
import Tabular.Proofs.Formula.Lexer

/-!
# Formulas and letter case

Tokens that are the same but for the case of names denote expressions that are the same but for the
case of addresses and function names, and those have one value in every table.
-/
namespace Tabular

/-- The errors are of one kind, whatever they tell of it. -/
inductive Error.SameKind : Error → Error → Prop
  | reference (fault fault' : AddressFault) : SameKind (.reference fault) (.reference fault')
  | formula (fault fault' : Formula.ParseFault) (text text' : String) :
    SameKind (.formula fault text) (.formula fault' text')

namespace Formula

open Text

mutual

/-- The expression with its addresses and function names in lower case. -/
def Expr.lowered : Expr → Expr
  | .number n => .number n
  | .text s => .text s
  | .boolean b => .boolean b
  | .cell address => .cell (lower address)
  | .range corner opposite => .range (lower corner) (lower opposite)
  | .binary op left right => .binary op left.lowered right.lowered
  | .unary sign operand => .unary sign operand.lowered
  | .call function arguments => .call (lower function) (Expr.loweredAll arguments)

def Expr.loweredAll : List Expr → List Expr
  | [] => []
  | e :: es => e.lowered :: Expr.loweredAll es

end

theorem Expr.loweredAll_eq_map (es : List Expr) : Expr.loweredAll es = es.map Expr.lowered := by
  induction es with
  | nil => rfl
  | cons e es ih => rw [loweredAll, List.map_cons, ih]

/-- The second token is the first one but for the case of a name. -/
inductive Token.Recased : Token → Token → Prop
  | name {s s' : String} (h : lower s = lower s') : Recased (.name s) (.name s')
  | number (n : Float) : Recased (.number n) (.number n)
  | text (s : String) : Recased (.text s) (.text s)
  | operator (op : BinaryOp) : Recased (.operator op) (.operator op)
  | openParen : Recased .openParen .openParen
  | closeParen : Recased .closeParen .closeParen
  | comma : Recased .comma .comma
  | colon : Recased .colon .colon

theorem Token.recased_of_lowered {t u : Token} (h : t.lowered = u.lowered) : t.Recased u := by
  cases t with
  | name s =>
    cases u with
    | name s' => exact .name (Token.name.inj h)
    | _ => cases h
  | _ =>
    cases u
    all_goals cases h
    all_goals constructor

/-- The second phrase is the first one but for the case of a function name. -/
inductive Phrase.Recased : Phrase → Phrase → Prop
  | arguments {f g : String} (h : lower f = lower g) : Recased (.arguments f) (.arguments g)
  | chain (l : Layer) (k : Nat) : Recased (.chain l k) (.chain l k)
  | layer (l : Layer) : Recased (.layer l) (.layer l)
  | power : Recased .power .power
  | unary : Recased .unary .unary
  | primary : Recased .primary .primary

theorem Phrase.Recased.operand (l : Layer) : Phrase.Recased l.operand l.operand := by
  cases l with
  | comparison => exact .layer .term
  | term => exact .layer .factor
  | factor => exact .power

theorem exists_of_forall₂_append {ts ts' us : List Token}
    (h : List.Forall₂ Token.Recased (ts ++ ts') us) :
    ∃ vs vs', us = vs ++ vs' ∧ List.Forall₂ Token.Recased ts vs ∧ List.Forall₂ Token.Recased ts' vs' := by
  have htake := List.forall₂_take ts.length h
  have hdrop := List.forall₂_drop ts.length h
  rw [List.take_left] at htake
  rw [List.drop_left] at hdrop
  exact ⟨_, _, (List.take_append_drop ts.length us).symm, htake, hdrop⟩

/-- What the arguments of a function denote is a call of it. -/
theorem Derives.exists_call {w : Weights} {n : Nat} {f : String} {ts : List Token} {e : Expr}
    (h : Derives w n (.arguments f) ts e) : ∃ es, e = .call f es := by
  cases h with
  | lastArgument => exact ⟨_, rfl⟩
  | argument => exact ⟨_, rfl⟩

/-- However the names in the phrase and in its tokens are recased, the tokens denote the same expression
but for the case of addresses and function names. -/
def Recasable (w : Weights) (n : Nat) (p : Phrase) (ts : List Token) (e : Expr) : Prop :=
  ∀ ⦃q us⦄, p.Recased q → List.Forall₂ Token.Recased ts us → ∃ d, Derives w n q us d ∧ e.lowered = d.lowered

namespace Recasable

variable {w : Weights} {m n k : Nat} {l : Layer} {f : String} {ts us : List Token} {e a b : Expr}

theorem number (x : Float) : Recasable w 1 .primary [.number x] (.number x) := by
  intro q vs hp hts
  obtain _ | ⟨⟨⟩, ⟨⟩⟩ := hts
  cases hp
  exact ⟨_, .number x, rfl⟩

theorem text (s : String) : Recasable w 1 .primary [.text s] (.text s) := by
  intro q vs hp hts
  obtain _ | ⟨⟨⟩, ⟨⟩⟩ := hts
  cases hp
  exact ⟨_, .text s, rfl⟩

theorem boolean {name : String} {b : Bool} (h : sameUpToCase name (Value.booleanText b) = true) :
    Recasable w 1 .primary [.name name] (.boolean b) := by
  intro q vs hp hts
  obtain _ | ⟨⟨hname⟩, ⟨⟩⟩ := hts
  cases hp
  refine ⟨_, .boolean b ?_, rfl⟩
  rw [sameUpToCase_iff] at h ⊢
  rw [← sameUpToCase_iff.mp (lower_eq_iff.mp hname), h]

theorem cell {address : String} (h : looksLikeCell address = true) :
    Recasable w 1 .primary [.name address] (.cell address) := by
  intro q vs hp hts
  obtain _ | ⟨⟨haddress⟩, ⟨⟩⟩ := hts
  cases hp
  have h' := looksLikeCell_congr (lower_eq_iff.mp haddress) ▸ h
  exact ⟨_, .cell h', congrArg Expr.cell haddress⟩

theorem range {corner opposite : String} (hc : looksLikeCell corner = true)
    (ho : looksLikeCell opposite = true) :
    Recasable w 1 .primary [.name corner, .colon, .name opposite] (.range corner opposite) := by
  intro q vs hp hts
  obtain _ | ⟨⟨hcorner⟩, _ | ⟨⟨⟩, _ | ⟨⟨hopposite⟩, ⟨⟩⟩⟩⟩ := hts
  cases hp
  have hc' := looksLikeCell_congr (lower_eq_iff.mp hcorner) ▸ hc
  have ho' := looksLikeCell_congr (lower_eq_iff.mp hopposite) ▸ ho
  exact ⟨_, .range hc' ho', congrArg₂ Expr.range hcorner hopposite⟩

theorem emptyCall (f : String) :
    Recasable w 1 .primary [.name f, .openParen, .closeParen] (.call f []) := by
  intro q vs hp hts
  obtain _ | ⟨⟨hf⟩, _ | ⟨⟨⟩, _ | ⟨⟨⟩, ⟨⟩⟩⟩⟩ := hts
  cases hp
  exact ⟨_, .emptyCall _, congrArg (Expr.call · []) hf⟩

theorem call (h : Recasable w n (.arguments f) ts e) :
    Recasable w n .primary (.name f :: .openParen :: (ts ++ [.closeParen])) e := by
  intro q vs hp hts
  obtain _ | ⟨⟨hf⟩, _ | ⟨⟨⟩, hts⟩⟩ := hts
  obtain ⟨vs, _, rfl, hvs, _ | ⟨⟨⟩, ⟨⟩⟩⟩ := exists_of_forall₂_append hts
  cases hp
  obtain ⟨d, hd, he⟩ := h (.arguments hf) hvs
  exact ⟨d, .call hd, he⟩

theorem lastArgument (h : Recasable w n (.layer .comparison) ts e) :
    Recasable w (n + w.argument) (.arguments f) ts (.call f [e]) := by
  intro q vs hp hts
  obtain ⟨hf⟩ := hp
  obtain ⟨d, hd, he⟩ := h (.layer _) hts
  exact ⟨_, .lastArgument hd, congrArg₂ Expr.call hf (congrArg (· :: []) he)⟩

theorem argument {es : List Expr} (h : Recasable w m (.layer .comparison) ts e)
    (hs : Recasable w n (.arguments f) us (.call f es)) :
    Recasable w (max (m + w.argument) n) (.arguments f) (ts ++ .comma :: us) (.call f (e :: es)) := by
  intro q vs hp hts
  obtain ⟨hf⟩ := hp
  obtain ⟨vs, _, rfl, hvs, _ | ⟨⟨⟩, hrest⟩⟩ := exists_of_forall₂_append hts
  obtain ⟨d, hd, he⟩ := h (.layer _) hvs
  obtain ⟨c, hc, hes⟩ := hs (.arguments hf) hrest
  obtain ⟨ds, rfl⟩ := hc.exists_call
  exact ⟨_, .argument hd hc, congrArg₂ Expr.call hf (congrArg₂ List.cons he (Expr.call.inj hes).2)⟩

theorem paren (h : Recasable w n (.layer .comparison) ts e) :
    Recasable w (n + w.paren) .primary (.openParen :: (ts ++ [.closeParen])) e := by
  intro q vs hp hts
  obtain _ | ⟨⟨⟩, hts⟩ := hts
  obtain ⟨vs, _, rfl, hvs, _ | ⟨⟨⟩, ⟨⟩⟩⟩ := exists_of_forall₂_append hts
  cases hp
  obtain ⟨d, hd, he⟩ := h (.layer _) hvs
  exact ⟨d, .paren hd, he⟩

theorem unsigned (h : Recasable w n .primary ts e) : Recasable w n .unary ts e := by
  intro q vs hp hts
  cases hp
  obtain ⟨d, hd, he⟩ := h .primary hts
  exact ⟨d, .unsigned hd, he⟩

theorem minus (h : Recasable w n .unary ts e) :
    Recasable w (n + w.sign) .unary (.operator .subtract :: ts) (.unary .minus e) := by
  intro q vs hp hts
  obtain _ | ⟨⟨⟩, hts⟩ := hts
  cases hp
  obtain ⟨d, hd, he⟩ := h .unary hts
  exact ⟨_, .minus hd, congrArg (Expr.unary .minus) he⟩

theorem plus (h : Recasable w n .unary ts e) :
    Recasable w (n + w.sign) .unary (.operator .add :: ts) (.unary .plus e) := by
  intro q vs hp hts
  obtain _ | ⟨⟨⟩, hts⟩ := hts
  cases hp
  obtain ⟨d, hd, he⟩ := h .unary hts
  exact ⟨_, .plus hd, congrArg (Expr.unary .plus) he⟩

theorem unraised (h : Recasable w n .unary ts e) : Recasable w n .power ts e := by
  intro q vs hp hts
  cases hp
  obtain ⟨d, hd, he⟩ := h .unary hts
  exact ⟨d, .unraised hd, he⟩

theorem raised (ha : Recasable w m .unary ts a) (hb : Recasable w n .power us b) :
    Recasable w (max (m + w.base) (n + w.exponent)) .power (ts ++ .operator .power :: us)
      (.binary .power a b) := by
  intro q vs hp hts
  obtain ⟨vs, _, rfl, hvs, _ | ⟨⟨⟩, hrest⟩⟩ := exists_of_forall₂_append hts
  cases hp
  obtain ⟨c, hc, hca⟩ := ha .unary hvs
  obtain ⟨d, hd, hdb⟩ := hb .power hrest
  exact ⟨_, .raised hc hd, congrArg₂ (Expr.binary .power) hca hdb⟩

theorem operand (h : Recasable w n l.operand ts e) : Recasable w n (.chain l 0) ts e := by
  intro q vs hp hts
  cases hp
  obtain ⟨d, hd, he⟩ := h (.operand l) hts
  exact ⟨d, .operand hd, he⟩

theorem operator {op : BinaryOp} (hop : l.accepts op = true) (ha : Recasable w m (.chain l k) ts a)
    (hb : Recasable w n l.operand us b) :
    Recasable w (max (m + w.before) (n + w.after (k + 1))) (.chain l (k + 1))
      (ts ++ .operator op :: us) (.binary op a b) := by
  intro q vs hp hts
  obtain ⟨vs, _, rfl, hvs, _ | ⟨⟨⟩, hrest⟩⟩ := exists_of_forall₂_append hts
  cases hp
  obtain ⟨c, hc, hca⟩ := ha (.chain l k) hvs
  obtain ⟨d, hd, hdb⟩ := hb (.operand l) hrest
  exact ⟨_, .operator hop hc hd, congrArg₂ (Expr.binary op) hca hdb⟩

theorem layer (h : Recasable w n (.chain l k) ts e) : Recasable w n (.layer l) ts e := by
  intro q vs hp hts
  cases hp
  obtain ⟨d, hd, he⟩ := h (.chain l k) hts
  exact ⟨d, .layer hd, he⟩

end Recasable

theorem Derives.recasable {w : Weights} {n : Nat} {p : Phrase} {ts : List Token} {e : Expr}
    (h : Derives w n p ts e) : Recasable w n p ts e := by
  induction h with
  | number x => exact .number x
  | text s => exact .text s
  | boolean b hb => exact .boolean hb
  | cell ha => exact .cell ha
  | range hc ho => exact .range hc ho
  | emptyCall f => exact .emptyCall f
  | call _ ih => exact ih.call
  | lastArgument _ ih => exact ih.lastArgument
  | argument _ _ ih ihs => exact .argument ih ihs
  | paren _ ih => exact ih.paren
  | unsigned _ ih => exact ih.unsigned
  | minus _ ih => exact ih.minus
  | plus _ ih => exact ih.plus
  | unraised _ ih => exact ih.unraised
  | raised _ _ iha ihb => exact .raised iha ihb
  | operand _ ih => exact ih.operand
  | operator hop _ _ iha ihb => exact .operator hop iha ihb
  | layer _ ih => exact ih.layer

theorem exists_of_parse {ts us : List Token} {e : Expr} (h : parse ts = .ok e)
    (hts : List.Forall₂ Token.Recased ts us) : ∃ d, parse us = .ok d ∧ e.lowered = d.lowered := by
  obtain ⟨n, hn, h⟩ := parse_eq_ok_iff.mp h
  obtain ⟨d, hd, he⟩ := h.recasable (.layer _) hts
  exact ⟨d, parse_eq_ok_iff.mpr ⟨n, hn, hd⟩, he⟩

theorem parse_congr {ts us : List Token} (h : ts.map Token.lowered = us.map Token.lowered) :
    (parse ts).toOption.map Expr.lowered = (parse us).toOption.map Expr.lowered := by
  have hrecased {ts us : List Token} (h : ts.map Token.lowered = us.map Token.lowered) :
      List.Forall₂ Token.Recased ts us := by
    rw [← List.forall₂_eq_eq_eq, List.forall₂_map_left_iff, List.forall₂_map_right_iff] at h
    exact h.imp fun _ _ => Token.recased_of_lowered
  cases hts : parse ts with
  | ok e =>
    obtain ⟨d, hus, he⟩ := exists_of_parse hts (hrecased h)
    rw [hus]
    exact congrArg some he
  | error =>
    cases hus : parse us with
    | ok d =>
      obtain ⟨e, he, -⟩ := exists_of_parse hus (hrecased h.symm)
      rw [hts] at he
      cases he
    | error => rfl

theorem toOption_parseText (s : String) :
    (parseText s).toOption = (tokenize s).toOption.bind fun ts => (parse ts).toOption := by
  rw [parseText]
  cases tokenize s <;> rfl

/-- Formulas that differ only in the case of letters outside literals denote the same expression but for
the case of addresses and function names, or denote none. -/
theorem parseText_congr {formula other : String} (h : caseless formula = caseless other) :
    (parseText formula).toOption.map Expr.lowered = (parseText other).toOption.map Expr.lowered := by
  have htokens := tokenize_congr h
  rw [toOption_parseText, toOption_parseText]
  cases hts : (tokenize formula).toOption with
  | none =>
    rw [hts, Option.map_none] at htokens
    rw [Option.map_eq_none_iff.mp htokens.symm]
  | some ts =>
    rw [hts, Option.map_some] at htokens
    obtain ⟨us, hus, hlowered⟩ := Option.map_eq_some_iff.mp htokens.symm
    rw [hus]
    exact parse_congr hlowered.symm

theorem Function.ofName?_lower (name : String) : ofName? (lower name) = ofName? name := by
  simp only [ofName?, sameUpToCase_lower_right]

namespace Context

variable (ctx : Context)

theorem cell_lower (address : String) : ctx.cell (lower address) = ctx.cell address := by
  unfold cell Table.resolveCell
  obtain ⟨a, hlower, ha⟩ | ⟨⟨_, hlower⟩, _, hfault⟩ :=
    cases_of_toOption_eq (CellAddress.parse_congr (sameUpToCase_lower address))
  · rw [hlower, ha]
  · rw [hlower, hfault]
    rfl

theorem range_lower (corner opposite : String) :
    ctx.range (lower corner) (lower opposite) = ctx.range corner opposite := by
  unfold range RangeAddress.parseCorners
  obtain ⟨a, hlower, ha⟩ | ⟨⟨_, hlower⟩, _, hfault⟩ :=
    cases_of_toOption_eq (CellAddress.parse_congr (sameUpToCase_lower corner))
  · obtain ⟨b, hlower', hb⟩ | ⟨⟨_, hlower'⟩, _, hfault'⟩ :=
      cases_of_toOption_eq (CellAddress.parse_congr (sameUpToCase_lower opposite))
    · rw [hlower, ha, hlower', hb]
    · rw [hlower, ha, hlower', hfault']
      rfl
  · rw [hlower, hfault]
    rfl

end Context

theorem rowOf_lower (address : String) : applyFunction.rowOf (lower address) = applyFunction.rowOf address := by
  unfold applyFunction.rowOf
  obtain ⟨a, hlower, ha⟩ | ⟨⟨_, hlower⟩, _, hfault⟩ :=
    cases_of_toOption_eq (CellAddress.parse_congr (sameUpToCase_lower address))
  · rw [hlower, ha]
  · rw [hlower, hfault]

theorem Expr.alike_lowered {ctx : Context} {e : Expr} (h : eval ctx e.lowered = eval ctx e) :
    Expr.Alike ctx e.lowered e := by
  cases e with
  | cell address =>
    have hcell := ctx.cell_lower address
    refine ⟨⟨?_, ?_⟩, ?_⟩
    · rw [lowered, asArgument, asArgument, Argument.scalar, Argument.scalar, hcell]
    · rw [lowered, asArgument, asArgument, Argument.cells, Argument.cells, hcell]
    · simp only [lowered, asArgument, Argument.rows, Argument.scalar, hcell]
  | range corner opposite =>
    have hrange := ctx.range_lower corner opposite
    refine ⟨⟨?_, ?_⟩, ?_⟩
    · rw [lowered, asArgument, asArgument, Argument.scalar, Argument.scalar, hrange]
    · rw [lowered, asArgument, asArgument, Argument.cells, Argument.cells, hrange]
    · rw [lowered, asArgument, asArgument, Argument.rows, Argument.rows, hrange]
  | _ =>
    have hsame := congrArg Argument.computed h
    exact ⟨⟨congrArg (Argument.scalar ctx) hsame, congrArg (Argument.cells ctx) hsame⟩,
      congrArg (Argument.rows ctx) hsame⟩

theorem applyFunction_row_lowered (ctx : Context) (e : Expr) :
    applyFunction ctx .row [e.lowered.asArgument (eval ctx e.lowered)] =
      applyFunction ctx .row [e.asArgument (eval ctx e)] := by
  have hcomputed (v : Value) : applyFunction ctx .row [.computed v] = .error .typeMismatch := rfl
  cases e with
  | cell address => exact rowOf_lower address
  | range corner opposite => exact rowOf_lower corner
  | _ => exact (hcomputed _).trans (hcomputed _).symm

/-- The case of addresses and function names does not matter to the value of an expression. -/
theorem eval_lowered (ctx : Context) (e : Expr) : eval ctx e.lowered = eval ctx e := by
  induction e with
  | number => rfl
  | text => rfl
  | boolean => rfl
  | cell address => rw [Expr.lowered, eval, eval, Argument.scalar, Argument.scalar, ctx.cell_lower]
  | range corner opposite =>
    rw [Expr.lowered, eval, eval, Argument.scalar, Argument.scalar, ctx.range_lower]
  | binary op left right ihleft ihright => rw [Expr.lowered, eval, eval, ihleft, ihright]
  | unary sign operand ih => rw [Expr.lowered, eval, eval, ih]
  | call name arguments ih =>
    have hname (es : List Expr) : eval ctx (.call (lower name) es) = eval ctx (.call name es) := by
      rw [eval, eval, applyCall, applyCall, Function.ofName?_lower]
    rw [Expr.lowered, hname, Expr.loweredAll_eq_map]
    refine eval_call_of_forall₂ ?_ fun _ d hd e he => ?_
    · rw [List.forall₂_map_left_iff, List.forall₂_same]
      exact fun e he => Expr.alike_lowered (ih e he)
    · obtain ⟨rest, rfl⟩ := List.head?_eq_some_iff.mp he
      obtain rfl := Option.some.inj hd
      exact applyFunction_row_lowered ctx e

/-- Formulas that differ only in the case of letters outside literals both denote an expression, of the
same value wherever it is evaluated, or both denote none. -/
theorem parseText_cases {formula other : String} (h : caseless formula = caseless other) :
    (∃ e d, parseText formula = .ok e ∧ parseText other = .ok d ∧ ∀ ctx, eval ctx e = eval ctx d) ∨
      ∃ fault fault', parseText formula = .error fault ∧ parseText other = .error fault' := by
  have hparsed := parseText_congr h
  cases he : parseText formula with
  | ok e =>
    rw [he] at hparsed
    cases hd : parseText other with
    | ok d =>
      rw [hd] at hparsed
      refine .inl ⟨e, d, rfl, rfl, fun ctx => ?_⟩
      rw [← eval_lowered, Option.some.inj hparsed, eval_lowered]
    | error =>
      rw [hd] at hparsed
      cases hparsed
  | error fault =>
    rw [he] at hparsed
    cases hd : parseText other with
    | ok d =>
      rw [hd] at hparsed
      cases hparsed
    | error fault' => exact .inr ⟨fault, fault', rfl, rfl⟩

end Formula

open Formula

/-- The case of letters outside literals does not matter to the value of a formula in any table, nor does
it matter, together with the case of the target, to the table that the value is written into or to the
kind of failure. -/
theorem applyFormula_caseless {formula other target otherTarget : String}
    (h : caseless formula = caseless other) (htarget : Text.sameUpToCase target otherTarget) (t : Table) :
    (∀ row, evalText formula t row = evalText other t row) ∧
    ((∃ u, t.applyFormula formula target = .ok u ∧ t.applyFormula other otherTarget = .ok u) ∨
      ∃ e e', t.applyFormula formula target = .error e ∧ t.applyFormula other otherTarget = .error e' ∧
        e.SameKind e') := by
  constructor
  · intro row
    unfold evalText
    obtain ⟨e, d, he, hd, hvalue⟩ | ⟨fault, fault', hfault, hfault'⟩ := parseText_cases h
    · rw [he, hd]
      exact hvalue _
    · rw [hfault, hfault']
  unfold Table.applyFormula
  obtain ⟨a, ha, ha'⟩ | ⟨⟨fault, hfault⟩, fault', hfault'⟩ :=
    cases_of_toOption_eq (CellAddress.parse_congr htarget)
  · rw [ha, ha']
    simp only [Except.mapError, bind, Except.bind, pure, Except.pure, throw, throwThe, MonadExceptOf.throw]
    split
    · exact .inr ⟨_, _, rfl, rfl, .reference _ _⟩
    obtain ⟨e, d, he, hd, hvalue⟩ | ⟨fault, fault', hfault, hfault'⟩ := parseText_cases h
    · rw [he, hd]
      refine .inl ⟨t.setCell a.row a.column (eval ⟨t, some a.row⟩ e), rfl, ?_⟩
      rw [hvalue]
    · rw [hfault, hfault']
      exact .inr ⟨_, _, rfl, rfl, .formula fault fault' formula other⟩
  · rw [hfault, hfault']
    exact .inr ⟨_, _, rfl, rfl, .reference fault fault'⟩

def answers : Table := ⟨[⟨"answer", .text, [.text "Yes", .text "no"]⟩], 2⟩

theorem applyFormula_answers_caseless :
    caseless "=If(a1 = \"Yes\", 1E2, TRUE)" = caseless "=IF(A1 = \"Yes\", 1e2, true)" ∧
    Text.sameUpToCase "b2" "B2" ∧
    (∀ row, evalText "=If(a1 = \"Yes\", 1E2, TRUE)" answers row =
      evalText "=IF(A1 = \"Yes\", 1e2, true)" answers row) ∧
    ((∃ u, answers.applyFormula "=If(a1 = \"Yes\", 1E2, TRUE)" "b2" = .ok u ∧
      answers.applyFormula "=IF(A1 = \"Yes\", 1e2, true)" "B2" = .ok u) ∨
      ∃ e e', answers.applyFormula "=If(a1 = \"Yes\", 1E2, TRUE)" "b2" = .error e ∧
        answers.applyFormula "=IF(A1 = \"Yes\", 1e2, true)" "B2" = .error e' ∧ e.SameKind e') := by
  have hformula : caseless "=If(a1 = \"Yes\", 1E2, TRUE)" = caseless "=IF(A1 = \"Yes\", 1e2, true)" := by
    decide +kernel
  have htarget : Text.sameUpToCase "b2" "B2" := by decide +kernel
  exact ⟨hformula, htarget, applyFormula_caseless hformula htarget answers⟩

end Tabular
