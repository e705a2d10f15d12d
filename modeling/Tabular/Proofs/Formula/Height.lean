import Tabular.Proofs.Formula.Completeness

/-!
# How high accepted expressions are

Nesting bounds what stands behind the operators of a chain, but a chain's first operand carries all
operators of the chain on top of it in the tree, and that operand may itself begin with a chain of
a tighter layer, or with a call. An accepted expression can therefore be much higher than the bound
on nesting. The height of an expression is the count of its derivation under other weights, and
the greatest height at each nesting is quadratic in it.
-/
namespace Tabular.Formula

mutual

/-- The number of expressions on the longest way from the root to a leaf. -/
def Expr.height : Expr → Nat
  | .number _ => 1
  | .text _ => 1
  | .boolean _ => 1
  | .cell _ => 1
  | .range _ _ => 1
  | .binary _ left right => max left.height right.height + 1
  | .unary _ operand => operand.height + 1
  | .call _ arguments => listHeight arguments + 1

def listHeight : List Expr → Nat
  | [] => 0
  | e :: es => max e.height (listHeight es)

end

/-- The tree is one higher at each argument, sign and operand, and parentheses do not show in it. -/
def Weights.height : Weights where
  paren := 0
  argument := 1
  sign := 1
  base := 1
  exponent := 1
  before := 1
  after _ := 1

section
variable {v w : Weights} {n : Nat} {p : Phrase} {ts : List Token} {e : Expr}

theorem Derives.reweigh (v : Weights) (h : Derives w n p ts e) : ∃ m, Derives v m p ts e := by
  induction h with
  | number x => exact ⟨_, .number x⟩
  | text s => exact ⟨_, .text s⟩
  | boolean b h => exact ⟨_, .boolean b h⟩
  | cell h => exact ⟨_, .cell h⟩
  | range hc ho => exact ⟨_, .range hc ho⟩
  | emptyCall f => exact ⟨_, .emptyCall f⟩
  | call _ ih => exact ih.imp fun _ => .call
  | lastArgument _ ih =>
    obtain ⟨_, h⟩ := ih
    exact ⟨_, h.lastArgument⟩
  | argument _ _ ih ihs =>
    obtain ⟨_, h⟩ := ih
    obtain ⟨_, hs⟩ := ihs
    exact ⟨_, h.argument hs⟩
  | paren _ ih =>
    obtain ⟨_, h⟩ := ih
    exact ⟨_, h.paren⟩
  | unsigned _ ih => exact ih.imp fun _ => .unsigned
  | minus _ ih =>
    obtain ⟨_, h⟩ := ih
    exact ⟨_, h.minus⟩
  | plus _ ih =>
    obtain ⟨_, h⟩ := ih
    exact ⟨_, h.plus⟩
  | unraised _ ih => exact ih.imp fun _ => .unraised
  | raised _ _ iha ihb =>
    obtain ⟨_, ha⟩ := iha
    obtain ⟨_, hb⟩ := ihb
    exact ⟨_, ha.raised hb⟩
  | operand _ ih => exact ih.imp fun _ => .operand
  | operator hop _ _ iha ihb =>
    obtain ⟨_, ha⟩ := iha
    obtain ⟨_, hb⟩ := ihb
    exact ⟨_, .operator hop ha hb⟩
  | layer _ ih => exact ih.imp fun _ => .layer

theorem Derives.height_eq (h : Derives .height n p ts e) : e.height = n := by
  induction h <;> simp_all [Expr.height, listHeight, Weights.height]
  all_goals omega

end

/-- The greatest height of a power that nests at most `n` deep. -/
def greatestPower : Nat → Nat
  | 0 => 0
  | 1 => 1
  | n + 2 => greatestPower (n + 1) + 3 * n + 2

/-- The greatest height of an expression that nests at most `n` deep: each of the three layers of
chains can put `n - 1` operators on top of a power. -/
def greatestHeight (n : Nat) : Nat := greatestPower n + 3 * (n - 1)

theorem greatestPower_add_two (n : Nat) :
    greatestPower (n + 1 + 1) = greatestHeight (n + 1) + 2 := by
  simp only [greatestPower, greatestHeight, Nat.add_sub_cancel]

theorem greatestHeight_lt_succ (n : Nat) : greatestHeight n < greatestHeight (n + 1) := by
  cases n with
  | zero => decide
  | succ n =>
    have := greatestPower_add_two n
    simp only [greatestHeight] at this ⊢
    omega

theorem greatestPower_le (n : Nat) : greatestPower n ≤ greatestHeight n := Nat.le_add_right _ _

theorem lt_greatestPower (n : Nat) : greatestHeight n < greatestPower (n + 1) := by
  cases n with
  | zero => decide
  | succ n =>
    have := greatestPower_add_two n
    omega

/-- The greatest heights of the kinds of phrases. -/
def Phrase.heightBound (n : Nat) : Phrase → Nat
  | .chain l k => greatestPower n + (2 - l.precedence) * (n - 1) + k
  | .layer l => greatestPower n + (3 - l.precedence) * (n - 1)
  | .power => greatestPower n
  | .unary => greatestHeight (n - 1) + 1
  | .primary => greatestHeight (n - 1) + 1
  | .arguments _ => greatestHeight (n - 1) + 1

theorem Phrase.heightBound_operand (n : Nat) (l : Layer) :
    l.operand.heightBound n = greatestPower n + (2 - l.precedence) * (n - 1) := by
  cases l <;> simp [Layer.operand, Layer.precedence, heightBound]

theorem Phrase.heightBound_layer (n : Nat) (l : Layer) :
    (Phrase.layer l).heightBound n = (Phrase.chain l (n - 1)).heightBound n := by
  cases l <;> simp [Layer.precedence, heightBound] <;> omega

theorem Derives.operators_lt {l : Layer} {k m : Nat} {ts : List Token} {e : Expr}
    (h : Derives .nesting m (.chain l k) ts e) : k < m := by
  cases h with
  | operand h => exact h.one_le
  | @operator _ k c d _ _ _ _ _ _ _ hb =>
    have hd : d + (k + 1) ≤ max (c + 0) (d + (k + 1)) := Nat.le_max_right _ _
    have := hb.one_le
    exact Nat.lt_of_lt_of_le (by omega) hd

theorem Derives.height_le {m n : Nat} {p : Phrase} {ts : List Token} {e : Expr}
    (h : Derives .nesting m p ts e) (hmn : m ≤ n) : e.height ≤ p.heightBound n := by
  induction h generalizing n with
  | call _ ih => exact ih hmn
  | @lastArgument _ _ _ e _ ih =>
    have he : e.height ≤ greatestHeight (n - 1) := ih (Nat.le_sub_one_of_lt hmn)
    simp only [Expr.height, listHeight, Phrase.heightBound]
    omega
  | @argument _ _ _ _ _ e es _ _ ih ihs =>
    obtain ⟨hm, hn⟩ := Nat.max_le.mp hmn
    have he : e.height ≤ greatestHeight (n - 1) := ih (Nat.le_sub_one_of_lt hm)
    have hes : listHeight es + 1 ≤ greatestHeight (n - 1) + 1 := ihs hn
    simp only [Expr.height, listHeight, Phrase.heightBound]
    omega
  | paren _ ih => exact Nat.le_succ_of_le (ih (Nat.le_sub_one_of_lt hmn))
  | unsigned _ ih => exact ih hmn
  | minus h ih | plus h ih =>
    obtain ⟨n, rfl⟩ : ∃ n', n = n' + 1 + 1 :=
      ⟨n - 2, by have := h.one_le; simp only [Weights.nesting] at hmn; omega⟩
    have he := ih (Nat.le_of_succ_le_succ hmn)
    exact Nat.succ_le_succ (he.trans (greatestHeight_lt_succ n))
  | unraised h ih =>
    obtain ⟨n, rfl⟩ := Nat.exists_eq_add_one.mpr (h.one_le.trans hmn)
    exact (ih hmn).trans (lt_greatestPower n)
  | @raised _ _ _ _ a b _ hb iha ihb =>
    obtain ⟨hm, hn⟩ := Nat.max_le.mp hmn
    obtain ⟨n, rfl⟩ : ∃ n', n = n' + 1 + 1 :=
      ⟨n - 2, by have := hb.one_le; simp only [Weights.nesting] at hn; omega⟩
    have ha : a.height ≤ greatestHeight (n + 1) + 1 := iha hm
    have hb : b.height ≤ greatestHeight (n + 1) :=
      (ihb (Nat.le_of_succ_le_succ hn)).trans (greatestPower_le _)
    have := greatestPower_add_two n
    simp only [Expr.height, Phrase.heightBound]
    omega
  | operand h ih =>
    rw [Phrase.heightBound, ← Phrase.heightBound_operand]
    exact ih hmn
  | @operator l k _ _ _ _ _ a b _ _ _ iha ihb =>
    obtain ⟨hm, hn⟩ := Nat.max_le.mp hmn
    have ha := iha hm
    have hb := ihb (n := n) (Nat.le_of_add_right_le hn)
    rw [Phrase.heightBound_operand] at hb
    simp only [Expr.height, Phrase.heightBound] at ha ⊢
    omega
  | @layer l k m _ _ h ih =>
    have hk := h.operators_lt
    have he := ih hmn
    rw [Phrase.heightBound_layer]
    simp only [Phrase.heightBound] at he ⊢
    omega
  | _ => exact Nat.le_add_left _ _

/-- Some tokens with an operator and a one behind them, `k` times. -/
def chainOfOnes (op : BinaryOp) (ts : List Token) : Nat → List Token
  | 0 => ts
  | k + 1 => chainOfOnes op ts k ++ [.operator op, .number 1.0]

def sumOfOnes (op : BinaryOp) (e : Expr) : Nat → Expr
  | 0 => e
  | k + 1 => .binary op (sumOfOnes op e k) (.number 1.0)

theorem Expr.height_pos (e : Expr) : 0 < e.height := by
  cases e <;> simp [height]

theorem height_sumOfOnes (op : BinaryOp) (e : Expr) (k : Nat) :
    (sumOfOnes op e k).height = e.height + k := by
  induction k with
  | zero => rfl
  | succ k ih =>
    have := e.height_pos
    simp only [sumOfOnes, Expr.height, ih]
    omega

theorem derives_one (n : Nat) (l : Layer) :
    DerivesWithin (n + 1) l.operand [.number 1.0] (.number 1.0) := by
  have hpower : DerivesWithin (n + 1) .power [.number 1.0] (.number 1.0) :=
    (DerivesWithin.leaf (.number 1.0)).unsigned.unraised
  cases l with
  | comparison => exact (hpower.operand (l := .factor)).layer.operand (l := .term) |>.layer
  | term => exact (hpower.operand (l := .factor)).layer
  | factor => exact hpower

theorem DerivesWithin.chainOfOnes {n k : Nat} {l : Layer} {ts : List Token} {e : Expr}
    (h : DerivesWithin n l.operand ts e) (op : BinaryOp) (hop : l.accepts op = true) (hk : k < n) :
    DerivesWithin n (.chain l k) (chainOfOnes op ts k) (sumOfOnes op e k) := by
  induction k with
  | zero => exact h.operand
  | succ k ih =>
    obtain ⟨d, rfl⟩ : ∃ d, n = d + 1 + (k + 1) := ⟨n - k - 2, by omega⟩
    exact (ih (by omega)).operator hop (derives_one d l)

/-- A power with a chain of each layer on top of it. -/
theorem exists_height_of_power {n : Nat} {ts : List Token} {e : Expr}
    (h : DerivesWithin (n + 1) .power ts e) (he : e.height = greatestPower (n + 1)) :
    ∃ us d, DerivesWithin (n + 1) (.layer .comparison) us d ∧
      d.height = greatestHeight (n + 1) := by
  have hfactor := (h.chainOfOnes (l := .factor) .multiply rfl n.lt_succ_self).layer
  have hterm := (hfactor.chainOfOnes (l := .term) .add rfl n.lt_succ_self).layer
  have hcomparison :=
    (hterm.chainOfOnes (l := .comparison) (.compare .eq) rfl n.lt_succ_self).layer
  refine ⟨_, _, hcomparison, ?_⟩
  simp only [height_sumOfOnes, he, greatestHeight]
  omega

/-- The bound on the height is reached at every nesting. -/
theorem exists_height_eq (n : Nat) : ∃ ts e,
    DerivesWithin (n + 1) (.layer .comparison) ts e ∧ e.height = greatestHeight (n + 1) := by
  induction n with
  | zero =>
    exact exists_height_of_power (DerivesWithin.leaf (.number 1.0)).unsigned.unraised rfl
  | succ n ih =>
    obtain ⟨ts, e, h, he⟩ := ih
    -- a call of the highest expression so far, as the base of a power
    have hcall : DerivesWithin (n + 1 + 1) .unary _ (.call "F" [e]) :=
      (h.lastArgument "F").call.unsigned
    have hone : DerivesWithin (n + 1) .power [.number 1.0] (.number 1.0) :=
      (DerivesWithin.leaf (.number 1.0)).unsigned.unraised
    refine exists_height_of_power (hcall.raised hone) ?_
    simp only [Expr.height, listHeight, he, greatestPower_add_two]
    omega

theorem two_mul_greatestHeight (n : Nat) :
    2 * greatestHeight (n + 1) = (3 * n + 1) * (n + 2) := by
  have hpower : 2 * greatestPower (n + 1) = 3 * (n * n) + n + 2 := by
    induction n with
    | zero => rfl
    | succ n ih =>
      rw [greatestPower, Nat.mul_add, Nat.mul_add, ih]
      grind
  simp only [greatestHeight]
  grind

theorem height_le_of_nesting {m n : Nat} {ts : List Token} {e : Expr}
    (h : Derives .nesting m (.layer .comparison) ts e) (hmn : m ≤ n) :
    e.height ≤ greatestHeight n :=
  h.height_le hmn

theorem height_le_iff {w : Weights} {m n : Nat} {ts : List Token} {e : Expr}
    (h : Derives w m (.layer .comparison) ts e) :
    e.height ≤ n ↔ ∃ k ≤ n, Derives .height k (.layer .comparison) ts e := by
  constructor
  · intro hle
    obtain ⟨k, hk⟩ := h.reweigh .height
    exact ⟨k, hk.height_eq ▸ hle, hk⟩
  · rintro ⟨k, hle, hk⟩
    exact hk.height_eq ▸ hle

/-- How high the expressions are that the parser accepts. The height of an expression is within the
bound on nesting exactly when the count of its derivation that charges an operator to all that
stands before it is; the greatest height of all is 98431, which some expression has; and the
nesting up to which no expression is higher than the bound is 12. -/
theorem height_of_accepted (ts : List Token) :
    (∀ e, parse ts = .ok e →
      (e.height ≤ maxNesting ↔
        ∃ n ≤ maxNesting, Derives .height n (.layer .comparison) ts e) ∧
      e.height ≤ 98431) ∧
    (∃ us d, parse us = .ok d ∧ d.height = 98431) ∧
    ∀ n, (∀ m ≤ n, ∀ us d, Derives .nesting m (.layer .comparison) us d →
      d.height ≤ maxNesting) ↔ n ≤ 12 := by
  have hmax : greatestHeight maxNesting = 98431 := by
    have htwice := two_mul_greatestHeight 255
    rw [show 255 + 1 = maxNesting from rfl] at htwice
    omega
  refine ⟨fun e h => ?_, ?_, fun n => ⟨fun h => ?_, fun hn m hm us d h => ?_⟩⟩
  · obtain ⟨m, hm, hd⟩ := parse_eq_ok_iff.mp h
    exact ⟨height_le_iff hd, hmax ▸ height_le_of_nesting hd hm⟩
  · obtain ⟨us, d, h, hd⟩ := exists_height_eq 255
    exact ⟨us, d, parse_eq_ok_iff.mpr h, hd.trans hmax⟩
  · by_contra hn
    obtain ⟨us, d, ⟨m, hm, hd⟩, he⟩ := exists_height_eq 12
    have hle := h m (by omega) us d hd
    rw [he] at hle
    exact absurd hle (by decide)
  · have hle := height_le_of_nesting h (hm.trans hn)
    exact hle.trans (by decide)

/-- A chain of sums on a chain of products is accepted, although its tree is higher than the bound
on nesting. -/
theorem parse_sum_of_products :
    parse (chainOfOnes .add (chainOfOnes .multiply [.number 1.0] 128) 128) =
        .ok (sumOfOnes .add (sumOfOnes .multiply (.number 1.0) 128) 128) ∧
      maxNesting < (sumOfOnes .add (sumOfOnes .multiply (.number 1.0) 128) 128).height := by
  constructor
  · have hone : DerivesWithin maxNesting .power [.number 1.0] (.number 1.0) := derives_one 255 .factor
    have hproduct : DerivesWithin maxNesting (.layer .factor) _ _ :=
      (hone.chainOfOnes (l := .factor) (k := 128) .multiply rfl (by decide)).layer
    have hsum : DerivesWithin maxNesting (.layer .term) _ _ :=
      (hproduct.chainOfOnes (l := .term) (k := 128) .add rfl (by decide)).layer
    exact parse_eq_ok_iff.mpr (hsum.operand (l := .comparison)).layer
  · simp [height_sumOfOnes, Expr.height, maxNesting]

end Tabular.Formula
