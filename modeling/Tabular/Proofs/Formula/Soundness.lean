import Tabular.Proofs.Formula.Grammar
import Tabular.Proofs.Outcome

/-!
# What the parsers read is derived

A parser is sound for a kind of phrase at a nesting when whatever it reads is such a phrase, nested
no deeper. Each way of combining parsers keeps soundness, and so all parsers of a level are sound
at the level's nesting.
-/
namespace Tabular.Formula

/-- The tokens are a phrase that nests at most `n` deep. -/
def DerivesWithin (n : Nat) (p : Phrase) (ts : List Token) (e : Expr) : Prop :=
  ∃ m ≤ n, Derives .nesting m p ts e

/-- Whatever the parser reads is a phrase that nests at most `n` deep. -/
def Sound (n : Nat) (p : Phrase) (parser : Parser) : Prop :=
  ∀ ⦃ts e rest⦄, parser ts = .ok (e, rest) → ∃ used, ts = used ++ rest ∧ DerivesWithin n p used e

/-- Whatever is read behind a chain continues it. The chain is `k` operators long, so that what
it nests is counted from `k` levels above. -/
def SoundContinuation (n : Nat) (l : Layer) (parser : Expr → Parser) : Prop :=
  ∀ ⦃k before left ts e rest⦄, DerivesWithin (n + k) (.chain l k) before left →
    parser left ts = .ok (e, rest) →
    ∃ used j, ts = used ++ rest ∧ DerivesWithin (n + k) (.chain l j) (before ++ used) e

namespace Level

def whole (level : Level) : Layer → Parser
  | .comparison => level.comparison
  | .term => level.term
  | .factor => level.factor

def continuation (level : Level) : Layer → Expr → Parser
  | .comparison => level.comparisonChain
  | .term => level.termChain
  | .factor => level.factorChain

def operand (level : Level) : Layer → Parser
  | .comparison => level.term
  | .term => level.factor
  | .factor => level.power

theorem unary_above (level : Level) :
    level.above.unary = signed level.unary (primary level.comparison) := rfl

theorem continuation_above (level : Level) (l : Layer) :
    level.above.continuation l = chain l.accepts (level.operand l) (level.continuation l) := by
  cases l <;> rfl

theorem whole_above (level : Level) (l : Layer) :
    level.above.whole l = chained (level.above.operand l) (level.above.continuation l) := by
  cases l <;> rfl

end Level

namespace DerivesWithin

variable {n : Nat} {ts us : List Token} {e a b : Expr}

theorem mono {m : Nat} {p : Phrase} (h : DerivesWithin m p ts e) (hmn : m ≤ n) :
    DerivesWithin n p ts e := by
  obtain ⟨d, hd, h⟩ := h
  exact ⟨d, Nat.le_trans hd hmn, h⟩

theorem leaf {p : Phrase} (h : Derives .nesting 1 p ts e) : DerivesWithin (n + 1) p ts e :=
  ⟨1, Nat.le_add_left 1 n, h⟩

theorem call {f : String} (h : DerivesWithin n (.arguments f) ts e) :
    DerivesWithin n .primary (.name f :: .openParen :: (ts ++ [.closeParen])) e := by
  obtain ⟨d, hd, h⟩ := h
  exact ⟨d, hd, .call h⟩

theorem lastArgument (f : String) (h : DerivesWithin n (.layer .comparison) ts e) :
    DerivesWithin (n + 1) (.arguments f) ts (.call f [e]) := by
  obtain ⟨d, hd, h⟩ := h
  exact ⟨d + 1, Nat.succ_le_succ hd, .lastArgument h⟩

theorem argument {f : String} {es : List Expr} (h : DerivesWithin n (.layer .comparison) ts e)
    (hs : DerivesWithin (n + 1) (.arguments f) us (.call f es)) :
    DerivesWithin (n + 1) (.arguments f) (ts ++ .comma :: us) (.call f (e :: es)) := by
  obtain ⟨d, hd, h⟩ := h
  obtain ⟨c, hc, hs⟩ := hs
  exact ⟨max (d + 1) c, by omega, .argument h hs⟩

theorem paren (h : DerivesWithin n (.layer .comparison) ts e) :
    DerivesWithin (n + 1) .primary (.openParen :: (ts ++ [.closeParen])) e := by
  obtain ⟨d, hd, h⟩ := h
  exact ⟨d + 1, Nat.succ_le_succ hd, .paren h⟩

theorem unsigned (h : DerivesWithin n .primary ts e) : DerivesWithin n .unary ts e := by
  obtain ⟨d, hd, h⟩ := h
  exact ⟨d, hd, .unsigned h⟩

theorem minus (h : DerivesWithin n .unary ts e) :
    DerivesWithin (n + 1) .unary (.operator .subtract :: ts) (.unary .minus e) := by
  obtain ⟨d, hd, h⟩ := h
  exact ⟨d + 1, Nat.succ_le_succ hd, .minus h⟩

theorem plus (h : DerivesWithin n .unary ts e) :
    DerivesWithin (n + 1) .unary (.operator .add :: ts) (.unary .plus e) := by
  obtain ⟨d, hd, h⟩ := h
  exact ⟨d + 1, Nat.succ_le_succ hd, .plus h⟩

theorem unraised (h : DerivesWithin n .unary ts e) : DerivesWithin n .power ts e := by
  obtain ⟨d, hd, h⟩ := h
  exact ⟨d, hd, .unraised h⟩

theorem raised (ha : DerivesWithin (n + 1) .unary ts a) (hb : DerivesWithin n .power us b) :
    DerivesWithin (n + 1) .power (ts ++ .operator .power :: us) (.binary .power a b) := by
  obtain ⟨c, hc, ha⟩ := ha
  obtain ⟨d, hd, hb⟩ := hb
  refine ⟨max (c + 0) (d + 1), by omega, .raised ha hb⟩

variable {l : Layer} {k : Nat}

theorem operand (h : DerivesWithin n l.operand ts e) : DerivesWithin n (.chain l 0) ts e := by
  obtain ⟨d, hd, h⟩ := h
  exact ⟨d, hd, .operand h⟩

theorem operator {op : BinaryOp} (hop : l.accepts op = true)
    (ha : DerivesWithin (n + (k + 1)) (.chain l k) ts a) (hb : DerivesWithin n l.operand us b) :
    DerivesWithin (n + (k + 1)) (.chain l (k + 1)) (ts ++ .operator op :: us) (.binary op a b) := by
  obtain ⟨c, hc, ha⟩ := ha
  obtain ⟨d, hd, hb⟩ := hb
  exact ⟨max (c + 0) (d + (k + 1)), by omega, .operator hop ha hb⟩

theorem layer (h : DerivesWithin n (.chain l k) ts e) : DerivesWithin n (.layer l) ts e := by
  obtain ⟨d, hd, h⟩ := h
  exact ⟨d, hd, .layer h⟩

end DerivesWithin

section
variable {n : Nat} {expression : Parser}

theorem argumentList_sound (h : Sound n (.layer .comparison) expression) (f : String)
    {ts rest : List Token} {es : List Expr} (heq : argumentList expression ts = .ok (es, rest)) :
    ∃ used, ts = used ++ rest ∧ DerivesWithin (n + 1) (.arguments f) used (.call f es) := by
  induction hlen : ts.length using Nat.strongRecOn generalizing ts es with
  | ind len ih =>
    rw [argumentList, bind_eq_ok] at heq
    obtain ⟨⟨e, more⟩, he, heq⟩ := heq
    obtain ⟨used, rfl, hd⟩ := h he
    dsimp only at heq
    split at heq
    next others =>
      rw [if_pos (by simp; omega), bind_eq_ok] at heq
      obtain ⟨⟨es', rest'⟩, hes, heq⟩ := heq
      cases heq
      obtain ⟨used', rfl, hd'⟩ := ih others.length (by simp [← hlen]; omega) hes rfl
      exact ⟨used ++ .comma :: used', by simp, hd.argument hd'⟩
    next =>
      cases heq
      exact ⟨used, rfl, hd.lastArgument f⟩

theorem call_sound (h : Sound n (.layer .comparison) expression) {f : String}
    {ts rest : List Token} {e : Expr} (heq : call expression f ts = .ok (e, rest)) :
    ∃ used, .name f :: .openParen :: ts = used ++ rest ∧ DerivesWithin (n + 1) .primary used e := by
  unfold call at heq
  split at heq
  next more =>
    cases heq
    exact ⟨[.name f, .openParen, .closeParen], rfl, .leaf (.emptyCall f)⟩
  next =>
    rw [bind_eq_ok] at heq
    obtain ⟨⟨es, more⟩, hes, heq⟩ := heq
    obtain ⟨used, rfl, hd⟩ := argumentList_sound h f hes
    dsimp only at heq
    split at heq
    next =>
      cases heq
      exact ⟨_, by simp, hd.call⟩
    next => cases heq

theorem named_sound {name : String} {ts rest : List Token} {e : Expr}
    (heq : named name ts = .ok (e, rest)) :
    ∃ used, .name name :: ts = used ++ rest ∧ DerivesWithin (n + 1) .primary used e := by
  unfold named at heq
  split at heq
  next htrue =>
    cases heq
    exact ⟨[.name name], rfl, .leaf (.boolean true htrue)⟩
  split at heq
  next hfalse =>
    cases heq
    exact ⟨[.name name], rfl, .leaf (.boolean false hfalse)⟩
  split at heq
  next => cases heq
  next hcell =>
    have hcell : looksLikeCell name = true := by simpa using hcell
    split at heq
    next =>
      split at heq
      next opposite _ =>
        split at heq
        next hopposite =>
          cases heq
          exact ⟨[.name name, .colon, .name opposite], rfl, .leaf (.range hcell hopposite)⟩
        next => cases heq
      next => cases heq
    next =>
      cases heq
      exact ⟨[.name name], rfl, .leaf (.cell hcell)⟩

theorem primary_sound (h : Sound n (.layer .comparison) expression) :
    Sound (n + 1) .primary (primary expression) := by
  intro ts e rest heq
  unfold primary at heq
  split at heq
  next x _ =>
    cases heq
    exact ⟨[.number x], rfl, .leaf (.number x)⟩
  next s _ =>
    cases heq
    exact ⟨[.text s], rfl, .leaf (.text s)⟩
  next => exact call_sound h heq
  next => exact named_sound heq
  next =>
    rw [bind_eq_ok] at heq
    obtain ⟨⟨inner, more⟩, he, heq⟩ := heq
    obtain ⟨used, rfl, hd⟩ := h he
    dsimp only at heq
    split at heq
    next =>
      cases heq
      exact ⟨_, by simp, hd.paren⟩
    next => cases heq
  next => cases heq
  next => cases heq

theorem signed_sound {nested unsigned : Parser} (hn : Sound n .unary nested)
    (hu : Sound (n + 1) .primary unsigned) : Sound (n + 1) .unary (signed nested unsigned) := by
  intro ts e rest heq
  unfold signed at heq
  split at heq
  next =>
    rw [bind_eq_ok] at heq
    obtain ⟨⟨x, more⟩, hx, heq⟩ := heq
    cases heq
    obtain ⟨used, rfl, hd⟩ := hn hx
    exact ⟨.operator .subtract :: used, rfl, hd.minus⟩
  next =>
    rw [bind_eq_ok] at heq
    obtain ⟨⟨x, more⟩, hx, heq⟩ := heq
    cases heq
    obtain ⟨used, rfl, hd⟩ := hn hx
    exact ⟨.operator .add :: used, rfl, hd.plus⟩
  next =>
    obtain ⟨used, rfl, hd⟩ := hu heq
    exact ⟨used, rfl, hd.unsigned⟩

theorem raised_sound {nested operand : Parser} (hn : Sound n .power nested)
    (ho : Sound (n + 1) .unary operand) : Sound (n + 1) .power (raised nested operand) := by
  intro ts e rest heq
  rw [raised, bind_eq_ok] at heq
  obtain ⟨⟨base, more⟩, hbase, heq⟩ := heq
  obtain ⟨used, rfl, hd⟩ := ho hbase
  dsimp only at heq
  split at heq
  next =>
    rw [bind_eq_ok] at heq
    obtain ⟨⟨exponent, more'⟩, hexp, heq⟩ := heq
    cases heq
    obtain ⟨used', rfl, hd'⟩ := hn hexp
    exact ⟨used ++ .operator .power :: used', by simp, hd.raised hd'⟩
  next =>
    cases heq
    exact ⟨used, rfl, hd.unraised⟩

variable {l : Layer}

theorem chain_sound {operand : Parser} {next : Expr → Parser} (ho : Sound n l.operand operand)
    (hnext : SoundContinuation n l next) :
    SoundContinuation (n + 1) l (chain l.accepts operand next) := by
  intro k before left ts e rest hleft heq
  unfold chain at heq
  split at heq
  next op more =>
    split at heq
    next hop =>
      rw [bind_eq_ok] at heq
      obtain ⟨⟨right, more'⟩, hright, heq⟩ := heq
      obtain ⟨used, rfl, hd⟩ := ho hright
      rw [Nat.add_right_comm] at hleft
      -- the chain is one operator longer now, and the parser one level lower
      obtain ⟨used', j, rfl, hd'⟩ := hnext (hleft.operator hop hd) heq
      refine ⟨.operator op :: (used ++ used'), j, by simp, ?_⟩
      rw [Nat.add_right_comm]
      simpa [Nat.add_assoc] using hd'
    next =>
      cases heq
      exact ⟨[], k, rfl, by simpa using hleft⟩
  next =>
    cases heq
    exact ⟨[], k, rfl, by simpa using hleft⟩

theorem chained_sound {operand : Parser} {next : Expr → Parser} (ho : Sound n l.operand operand)
    (hnext : SoundContinuation n l next) : Sound n (.layer l) (chained operand next) := by
  intro ts e rest heq
  rw [chained, bind_eq_ok] at heq
  obtain ⟨⟨first, more⟩, hfirst, heq⟩ := heq
  obtain ⟨used, rfl, hd⟩ := ho hfirst
  obtain ⟨used', j, rfl, hd'⟩ := hnext (k := 0) hd.operand heq
  exact ⟨used ++ used', by simp, hd'.layer⟩

end

/-- All parsers of a level are sound. -/
structure Level.IsSound (n : Nat) (level : Level) : Prop where
  unary : Sound n .unary level.unary
  power : Sound n .power level.power
  whole : ∀ l, Sound n (.layer l) (level.whole l)
  continuation : ∀ l, SoundContinuation n l (level.continuation l)

namespace Level.IsSound

variable {n : Nat} {level : Level}

theorem operand (h : level.IsSound n) (l : Layer) : Sound n l.operand (level.operand l) := by
  cases l with
  | comparison => exact h.whole .term
  | term => exact h.whole .factor
  | factor => exact h.power

theorem none : Level.none.IsSound 0 where
  unary _ _ _ heq := nomatch heq
  power _ _ _ heq := nomatch heq
  whole l _ _ _ heq := by cases l <;> exact nomatch heq
  continuation l _ _ _ _ _ _ _ heq := by cases l <;> exact nomatch heq

theorem above (h : level.IsSound n) : level.above.IsSound (n + 1) := by
  have hunary : Sound (n + 1) .unary level.above.unary :=
    signed_sound h.unary (primary_sound (h.whole .comparison))
  have hpower : Sound (n + 1) .power level.above.power := raised_sound h.power hunary
  have hcontinuation (l : Layer) : SoundContinuation (n + 1) l (level.above.continuation l) := by
    rw [continuation_above]
    exact chain_sound (h.operand l) (h.continuation l)
  have hfactor : Sound (n + 1) (.layer .factor) (level.above.whole .factor) :=
    chained_sound hpower (hcontinuation .factor)
  have hterm : Sound (n + 1) (.layer .term) (level.above.whole .term) :=
    chained_sound hfactor (hcontinuation .term)
  refine ⟨hunary, hpower, fun l => ?_, hcontinuation⟩
  cases l with
  | comparison => exact chained_sound hterm (hcontinuation .comparison)
  | term => exact hterm
  | factor => exact hfactor

theorem ofNesting (n : Nat) : (Level.ofNesting n).IsSound n := by
  induction n with
  | zero => exact none
  | succ n ih => exact ih.above

end Level.IsSound

/-- What the parser of formulas accepts is derived within the bound. -/
theorem derivesWithin_of_parse {ts : List Token} {e : Expr} (h : parse ts = .ok e) :
    DerivesWithin maxNesting (.layer .comparison) ts e := by
  unfold parse at h
  split at h
  next => cases h
  next =>
    split at h
    next => cases h
    next heq =>
      cases h
      obtain ⟨used, hused, hd⟩ := (Level.IsSound.ofNesting maxNesting).whole .comparison heq
      simpa [hused] using hd
    next => cases h

end Tabular.Formula
