import Tabular.Formula.Parser

/-!
# The grammar of formulas

What a list of tokens denotes, apart from any way of reading it. Comparisons, sums and products are
chains of operands that group to the left, powers group to the right, and signs bind tighter.

A derivation carries a count. It is one at every leaf, and what encloses a phrase adds to it by
given weights. One choice of weights counts how deep a formula nests, and another one counts how
high the tree is that it denotes.
-/
namespace Tabular.Formula

/-- The operators that group to the left, in layers from loosest to tightest. -/
inductive Layer
  | comparison
  | term
  | factor
  deriving DecidableEq, Repr

def Layer.accepts : Layer → BinaryOp → Bool
  | comparison => BinaryOp.isComparison
  | term => BinaryOp.isTerm
  | factor => BinaryOp.isFactor

inductive Phrase
  /-- Operands of a layer with so many of its operators between them. -/
  | chain (layer : Layer) (operators : Nat)
  /-- A chain of any length. -/
  | layer (layer : Layer)
  | power
  | unary
  | primary
  /-- The arguments of a call, at least one. What they denote is the whole call. -/
  | arguments (function : String)
  deriving DecidableEq, Repr

def Layer.operand : Layer → Phrase
  | comparison => .layer .term
  | term => .layer .factor
  | factor => .power

/-- What each construct adds to the count of a phrase inside it. -/
structure Weights where
  paren : Nat
  argument : Nat
  sign : Nat
  base : Nat
  exponent : Nat
  /-- Added by every operator of a chain to what stands before it. -/
  before : Nat
  /-- Added to the operand after the operator of a chain that has this number, from one. -/
  after : Nat → Nat

/-- Nesting is one deeper in parentheses, in an argument, behind a sign and in an exponent, and it
is `j` deeper behind the `j`-th operator of a chain. -/
def Weights.nesting : Weights where
  paren := 1
  argument := 1
  sign := 1
  base := 0
  exponent := 1
  before := 0
  after j := j

/-- `Derives w n p tokens e`: the tokens are a phrase of kind `p` that denotes `e`, and the
greatest count in its derivation is `n`. -/
inductive Derives (w : Weights) : Nat → Phrase → List Token → Expr → Prop
  | number (x : Float) : Derives w 1 .primary [.number x] (.number x)
  | text (s : String) : Derives w 1 .primary [.text s] (.text s)
  | boolean {name : String} (b : Bool) :
      Text.sameUpToCase name (Value.booleanText b) = true →
      Derives w 1 .primary [.name name] (.boolean b)
  | cell {address : String} :
      looksLikeCell address = true → Derives w 1 .primary [.name address] (.cell address)
  | range {corner opposite : String} :
      looksLikeCell corner = true → looksLikeCell opposite = true →
      Derives w 1 .primary [.name corner, .colon, .name opposite] (.range corner opposite)
  | emptyCall (f : String) :
      Derives w 1 .primary [.name f, .openParen, .closeParen] (.call f [])
  | call {f : String} {n : Nat} {ts : List Token} {e : Expr} :
      Derives w n (.arguments f) ts e →
      Derives w n .primary (.name f :: .openParen :: (ts ++ [.closeParen])) e
  | lastArgument {f : String} {n : Nat} {ts : List Token} {e : Expr} :
      Derives w n (.layer .comparison) ts e →
      Derives w (n + w.argument) (.arguments f) ts (.call f [e])
  | argument {f : String} {m n : Nat} {ts us : List Token} {e : Expr} {es : List Expr} :
      Derives w m (.layer .comparison) ts e → Derives w n (.arguments f) us (.call f es) →
      Derives w (max (m + w.argument) n) (.arguments f) (ts ++ .comma :: us) (.call f (e :: es))
  | paren {n : Nat} {ts : List Token} {e : Expr} :
      Derives w n (.layer .comparison) ts e →
      Derives w (n + w.paren) .primary (.openParen :: (ts ++ [.closeParen])) e
  | unsigned {n : Nat} {ts : List Token} {e : Expr} :
      Derives w n .primary ts e → Derives w n .unary ts e
  | minus {n : Nat} {ts : List Token} {e : Expr} :
      Derives w n .unary ts e →
      Derives w (n + w.sign) .unary (.operator .subtract :: ts) (.unary .minus e)
  | plus {n : Nat} {ts : List Token} {e : Expr} :
      Derives w n .unary ts e →
      Derives w (n + w.sign) .unary (.operator .add :: ts) (.unary .plus e)
  | unraised {n : Nat} {ts : List Token} {e : Expr} :
      Derives w n .unary ts e → Derives w n .power ts e
  | raised {m n : Nat} {ts us : List Token} {a b : Expr} :
      Derives w m .unary ts a → Derives w n .power us b →
      Derives w (max (m + w.base) (n + w.exponent)) .power (ts ++ .operator .power :: us)
        (.binary .power a b)
  | operand {l : Layer} {n : Nat} {ts : List Token} {e : Expr} :
      Derives w n l.operand ts e → Derives w n (.chain l 0) ts e
  | operator {l : Layer} {k m n : Nat} {op : BinaryOp} {ts us : List Token} {a b : Expr} :
      l.accepts op = true → Derives w m (.chain l k) ts a → Derives w n l.operand us b →
      Derives w (max (m + w.before) (n + w.after (k + 1))) (.chain l (k + 1))
        (ts ++ .operator op :: us) (.binary op a b)
  | layer {l : Layer} {k n : Nat} {ts : List Token} {e : Expr} :
      Derives w n (.chain l k) ts e → Derives w n (.layer l) ts e

namespace Derives

variable {w : Weights} {n : Nat} {p : Phrase} {ts : List Token} {e : Expr}

/-- A phrase begins with a token, which is no closing parenthesis. -/
theorem tokens_eq_cons (h : Derives w n p ts e) : ∃ t us, ts = t :: us ∧ t ≠ .closeParen := by
  induction h with
  | argument _ _ ih _ | raised _ _ ih _ | operator _ _ _ ih _ =>
    obtain ⟨t, us, rfl, ht⟩ := ih
    exact ⟨t, _, rfl, ht⟩
  | lastArgument _ ih | unsigned _ ih | unraised _ ih | operand _ ih | layer _ ih => exact ih
  | _ => exact ⟨_, _, rfl, nofun⟩

theorem one_le (h : Derives w n p ts e) : 1 ≤ n := by
  induction h <;> omega

end Derives

end Tabular.Formula
