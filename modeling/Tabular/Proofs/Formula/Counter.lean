import Tabular.Proofs.Formula.Soundness

/-!
# The nesting of an expression as a counter

A parser can keep its depth in a counter, which goes up in front of everything nested and down again behind
it, and behind a chain down by the number of its operators. Each production that succeeds leaves the counter
as it has found it. At each depth it therefore reads what the parsers of one level read, so that counting
down the levels that are left is the same as counting up.
-/
namespace Tabular.Formula

/-- The tokens that are still to be read, and the depth at which they stand. -/
structure Cursor where
  tokens : List Token
  depth : Nat

def Cursor.descend (s : Cursor) : Except Stop Cursor :=
  if s.depth < maxNesting then .ok { s with depth := s.depth + 1 }
  else .error ⟨.tooDeep, s.tokens.length⟩

/-- Reads an expression and moves the cursor behind it. -/
abbrev Production := Cursor → Except Stop (Expr × Cursor)

namespace Counting

def nested (p : Production) (s : Cursor) : Except Stop (Expr × Cursor) := do
  let s ← s.descend
  let (e, s) ← p s
  return (e, { s with depth := s.depth - 1 })

def arguments (expression : Production) (s : Cursor) : Except Stop (List Expr × Cursor) := do
  let (argument, s') ← expression s
  match s'.tokens with
  | .comma :: rest =>
    if rest.length < s.tokens.length then
      let (others, s') ← arguments expression { s' with tokens := rest }
      return (argument :: others, s')
    else return ([argument], { s' with tokens := rest })
  | _ => return ([argument], s')
termination_by s.tokens.length

def call (expression : Production) (function : String) (s : Cursor) : Except Stop (Expr × Cursor) :=
  match s.tokens with
  | .closeParen :: rest => .ok (.call function [], { s with tokens := rest })
  | _ => do
    let (arguments, s) ← arguments expression s
    match s.tokens with
    | .closeParen :: rest => return (.call function arguments, { s with tokens := rest })
    | rest => throw ⟨.unclosedCall, rest.length⟩

def primary (expression : Production) : Production := fun s =>
  match s.tokens with
  | .number n :: rest => .ok (.number n, { s with tokens := rest })
  | .text t :: rest => .ok (.text t, { s with tokens := rest })
  | .name function :: .openParen :: rest => call expression function { s with tokens := rest }
  | .name name :: rest => do
    let (e, rest) ← named name rest
    return (e, { s with tokens := rest })
  | .openParen :: rest => do
    let (e, s) ← expression { s with tokens := rest }
    match s.tokens with
    | .closeParen :: rest => return (e, { s with tokens := rest })
    | rest => throw ⟨.unclosedParen, rest.length⟩
  | [] => .error ⟨.unexpectedEnd, 0⟩
  | token :: rest => .error ⟨.unexpected token, rest.length + 1⟩

def signed (operand unsigned : Production) : Production := fun s =>
  match s.tokens with
  | .operator .subtract :: rest => do
    let (e, s) ← nested operand { s with tokens := rest }
    return (.unary .minus e, s)
  | .operator .add :: rest => do
    let (e, s) ← nested operand { s with tokens := rest }
    return (.unary .plus e, s)
  | _ => unsigned s

def raised (exponent operand : Production) : Production := fun s => do
  let (base, s) ← operand s
  match s.tokens with
  | .operator .power :: rest =>
    let (exponent, s) ← nested exponent { s with tokens := rest }
    return (.binary .power base exponent, s)
  | _ => return (base, s)

/-- What continues a chain of some operators. The counter goes down when no operator follows. -/
def chain (accepts : BinaryOp → Bool) (operand : Production) (next : Expr → Nat → Production) (left : Expr)
    (operators : Nat) : Production := fun s =>
  match s.tokens with
  | .operator op :: rest =>
    if accepts op then do
      let s ← Cursor.descend { s with tokens := rest }
      let (right, s) ← operand s
      next (.binary op left right) (operators + 1) s
    else .ok (left, { s with depth := s.depth - operators })
  | _ => .ok (left, { s with depth := s.depth - operators })

def chained (operand : Production) (chain : Expr → Nat → Production) : Production := fun s => do
  let (first, s) ← operand s
  chain first 0 s

/-- The productions, given those for what is nested deeper. -/
structure Grammar where
  unary : Production
  power : Production
  factorChain : Expr → Nat → Production
  factor : Production
  termChain : Expr → Nat → Production
  term : Production
  comparisonChain : Expr → Nat → Production
  comparison : Production

def Grammar.above (below : Grammar) : Grammar :=
  let unary := signed below.unary (primary (nested below.comparison))
  let power := raised below.power unary
  let factorChain := chain BinaryOp.isFactor below.power below.factorChain
  let factor := chained power factorChain
  let termChain := chain BinaryOp.isTerm below.factor below.termChain
  let term := chained factor termChain
  let comparisonChain := chain BinaryOp.isComparison below.term below.comparisonChain
  let comparison := chained term comparisonChain
  { unary, power, factorChain, factor, termChain, term, comparisonChain, comparison }

/-- The productions unrolled some times. The last ones are never used where the counter stops first. -/
def Grammar.unrolled : Nat → Grammar
  | 0 =>
    let stop : Production := fun s => .error ⟨.unexpectedEnd, s.tokens.length⟩
    ⟨stop, stop, fun _ _ => stop, stop, fun _ _ => stop, stop, fun _ _ => stop, stop⟩
  | n + 1 => (unrolled n).above

/-- The expression that a list of tokens denotes, read with a counter that begins at zero. -/
def parse (tokens : List Token) : Except ParseFault Expr :=
  match tokens with
  | [] => .error ⟨.empty, 0⟩
  | tokens => match nested (Grammar.unrolled maxNesting).comparison ⟨tokens, 0⟩ with
    | .error stop => .error ⟨stop.cause, tokens.length - stop.remaining⟩
    | .ok (e, ⟨[], _⟩) => .ok e
    | .ok (_, ⟨token :: rest, _⟩) => .error ⟨.trailing token, tokens.length - (rest.length + 1)⟩

/-- What is read, with the cursor at a depth behind it. -/
def placed {α : Type} (d : Nat) (r : Except Stop (α × List Token)) : Except Stop (α × Cursor) :=
  r.map fun (x, rest) => (x, ⟨rest, d⟩)

theorem bind_placed {α β : Type} (d : Nat) (r : Except Stop (α × List Token))
    (k : α × Cursor → Except Stop β) : placed d r >>= k = r >>= fun (x, rest) => k (x, ⟨rest, d⟩) := by
  cases r <;> rfl

theorem placed_bind {α β : Type} (d : Nat) (r : Except Stop α) (k : α → Except Stop (β × List Token)) :
    placed d (r >>= k) = r >>= fun x => placed d (k x) := by
  cases r <;> rfl

/-- From one depth the production reads what the parser reads, and it leaves the counter at the other. -/
def Tracks (d d' : Nat) (p : Production) (q : Parser) : Prop :=
  ∀ tokens, p ⟨tokens, d⟩ = placed d' (q tokens)

/-- A production that tracks a parser at one depth leaves the counter as it was. -/
theorem Tracks.depth_eq {d d' : Nat} {p : Production} {q : Parser} (h : Tracks d d' p q) {tokens : List Token}
    {e : Expr} {s : Cursor} (hp : p ⟨tokens, d⟩ = .ok (e, s)) : s.depth = d' := by
  rw [h tokens, placed] at hp
  obtain ⟨⟨e', rest⟩, -, hs⟩ := exists_of_map_eq_ok hp
  cases hs
  rfl

section

variable {d n : Nat} {p p' : Production} {q q' : Parser} {tokens : List Token}

theorem Tracks.nested (h : Tracks (d + 1) (d + 1) p q) (hd : d < maxNesting) : Tracks d d (nested p) q := by
  intro tokens
  rw [Counting.nested, Cursor.descend, if_pos hd]
  show (do
    let (e, s) ← p ⟨tokens, d + 1⟩
    return (e, ({ s with depth := s.depth - 1 } : Cursor))) = _
  rw [h tokens]
  cases q tokens <;> rfl

/-- Nothing is nested deeper than the counter may go. -/
theorem nested_eq_error (hd : maxNesting ≤ d) :
    nested p ⟨tokens, d⟩ = .error ⟨.tooDeep, tokens.length⟩ := by
  rw [nested, Cursor.descend, if_neg (Nat.not_lt.mpr hd)]
  rfl

theorem arguments_eq (h : Tracks d d p q) (tokens : List Token) :
    arguments p ⟨tokens, d⟩ = placed d (argumentList q tokens) := by
  induction hlength : tokens.length using Nat.strongRecOn generalizing tokens with
  | ind k ih =>
    rw [arguments, argumentList, h tokens]
    cases q tokens with
    | error stop => rfl
    | ok read =>
      obtain ⟨e, rest⟩ := read
      cases rest with
      | nil => rfl
      | cons token rest =>
        cases token with
        | comma =>
          show (if rest.length < tokens.length then _ else _) =
            placed d (if rest.length < tokens.length then _ else _)
          split
          next hlt =>
            rw [ih rest.length (by omega) rest rfl, bind_placed, placed_bind]
            rfl
          next => rfl
        | _ => rfl

theorem call_eq (h : Tracks d d p q) (function : String) (tokens : List Token) :
    call p function ⟨tokens, d⟩ = placed d (Formula.call q function tokens) := by
  unfold call
  dsimp only
  split
  next => rfl
  next hne =>
    rw [Formula.call, arguments_eq h, bind_placed, placed_bind]
    · refine congrArg _ (funext fun read => ?_)
      obtain ⟨es, rest⟩ := read
      cases rest with
      | nil => rfl
      | cons token rest => cases token <;> rfl
    · exact hne

theorem Tracks.primary (h : Tracks d d p q) : Tracks d d (primary p) (Formula.primary q) := by
  intro tokens
  unfold Counting.primary
  dsimp only
  split
  next => rfl
  next => rfl
  next function rest => exact call_eq h function rest
  next name rest hne =>
    have hname : Formula.primary q (.name name :: rest) = named name rest := by
      rw [Formula.primary]
      exact hne
    rw [hname, placed]
    cases named name rest <;> rfl
  next rest =>
    rw [Formula.primary]
    rw [h rest, bind_placed, placed_bind]
    refine congrArg _ (funext fun read => ?_)
    obtain ⟨e, rest⟩ := read
    cases rest with
    | nil => rfl
    | cons token rest => cases token <;> rfl
  next => rfl
  next token rest _ _ _ _ _ =>
    have hother : Formula.primary q (token :: rest) = .error ⟨.unexpected token, rest.length + 1⟩ := by
      rw [Formula.primary] <;> assumption
    rw [hother]
    rfl

theorem Tracks.signed (h : Tracks d d (Counting.nested p) q) (h' : Tracks d d p' q') :
    Tracks d d (signed p p') (Formula.signed q q') := by
  intro tokens
  unfold Counting.signed
  dsimp only
  split
  next rest =>
    rw [Formula.signed, h rest, bind_placed, placed_bind]
    rfl
  next rest =>
    rw [Formula.signed, h rest, bind_placed, placed_bind]
    rfl
  next hminus hplus =>
    have hunsigned : Formula.signed q q' tokens = q' tokens := by
      rw [Formula.signed] <;> assumption
    rw [hunsigned]
    exact h' tokens

theorem Tracks.raised (h : Tracks d d (Counting.nested p) q) (h' : Tracks d d p' q') :
    Tracks d d (raised p p') (Formula.raised q q') := by
  intro tokens
  unfold Counting.raised Formula.raised
  rw [h' tokens, bind_placed, placed_bind]
  refine congrArg _ (funext fun read => ?_)
  obtain ⟨base, rest⟩ := read
  cases rest with
  | nil => rfl
  | cons token rest =>
    cases token with
    | operator op =>
      cases op with
      | power =>
        dsimp only
        rw [h rest, bind_placed, placed_bind]
        rfl
      | _ => rfl
    | _ => rfl

variable {next : Expr → Nat → Production} {next' : Expr → Parser} {accepts : BinaryOp → Bool} {left : Expr}
  {k : Nat}

theorem Tracks.chain (h : Tracks (d + 1) (d + 1) p q)
    (hnext : ∀ left, Tracks (d + 1) (d - k) (next left (k + 1)) (next' left)) (hd : d < maxNesting) :
    Tracks d (d - k) (chain accepts p next left k) (Formula.chain accepts q next' left) := by
  intro tokens
  unfold Counting.chain
  dsimp only
  split
  next op rest =>
    rw [Formula.chain]
    split
    next =>
      rw [Cursor.descend, if_pos hd]
      show (do
        let (right, s) ← p ⟨rest, d + 1⟩
        next (.binary op left right) (k + 1) s) = _
      rw [h rest, bind_placed, placed_bind]
      refine congrArg _ (funext fun read => ?_)
      obtain ⟨right, rest⟩ := read
      exact hnext _ rest
    next => rfl
  next hne =>
    rw [Formula.chain]
    · rfl
    · exact hne

theorem tracks_chain_none (layer : Layer) (hd : maxNesting ≤ d) : Tracks d (d - k) (chain accepts p next left k)
    (Formula.chain accepts (Level.none.operand layer) (Level.none.continuation layer) left) := by
  intro tokens
  unfold Counting.chain
  dsimp only
  split
  next op rest =>
    rw [Formula.chain]
    split
    next =>
      rw [Cursor.descend, if_neg (Nat.not_lt.mpr hd)]
      cases layer <;> rfl
    next => rfl
  next hne =>
    rw [Formula.chain]
    · rfl
    · exact hne

theorem Tracks.chained (h : Tracks d d p q) (hnext : ∀ left, Tracks d d (next left 0) (next' left)) :
    Tracks d d (chained p next) (Formula.chained q next') := by
  intro tokens
  unfold Counting.chained Formula.chained
  rw [h tokens, bind_placed, placed_bind]
  refine congrArg _ (funext fun read => ?_)
  obtain ⟨first, rest⟩ := read
  exact hnext first rest

end

namespace Grammar

def whole (g : Grammar) : Layer → Production
  | .comparison => g.comparison
  | .term => g.term
  | .factor => g.factor

def continuation (g : Grammar) : Layer → Expr → Nat → Production
  | .comparison => g.comparisonChain
  | .term => g.termChain
  | .factor => g.factorChain

def operand (g : Grammar) : Layer → Production
  | .comparison => g.term
  | .term => g.factor
  | .factor => g.power

/-- At a depth the productions track the parsers of a level. A chain takes back its operators. -/
structure Tracks (d : Nat) (g : Grammar) (l : Level) : Prop where
  unary : Counting.Tracks d d g.unary l.unary
  power : Counting.Tracks d d g.power l.power
  whole : ∀ layer, Counting.Tracks d d (g.whole layer) (l.whole layer)
  continuation : ∀ layer left k,
    Counting.Tracks d (d - k) (g.continuation layer left k) (l.continuation layer left)

/-- At a depth the productions track the parsers of a level, where they read something nested. -/
structure Nests (d : Nat) (g : Grammar) (l : Level) : Prop where
  unary : Counting.Tracks d d (nested g.unary) l.unary
  power : Counting.Tracks d d (nested g.power) l.power
  comparison : Counting.Tracks d d (nested g.comparison) l.comparison
  chain : ∀ layer left k, Counting.Tracks d (d - k)
    (chain layer.accepts (g.operand layer) (g.continuation layer) left k)
    (Formula.chain layer.accepts (l.operand layer) (l.continuation layer) left)

variable {d n : Nat} {g : Grammar} {l : Level}

theorem Tracks.operand (h : g.Tracks d l) (layer : Layer) :
    Counting.Tracks d d (g.operand layer) (l.operand layer) := by
  cases layer with
  | comparison => exact h.whole .term
  | term => exact h.whole .factor
  | factor => exact h.power

theorem Tracks.nests (h : g.Tracks (d + 1) l) (hd : d < maxNesting) : g.Nests d l where
  unary := h.unary.nested hd
  power := h.power.nested hd
  comparison := (h.whole .comparison).nested hd
  chain layer left k := by
    refine (h.operand layer).chain (fun left => ?_) hd
    have hnext := h.continuation layer left (k + 1)
    rwa [Nat.succ_sub_succ] at hnext

theorem nests_none (hd : maxNesting ≤ d) : g.Nests d .none where
  unary _ := nested_eq_error hd
  power _ := nested_eq_error hd
  comparison _ := nested_eq_error hd
  chain layer _ _ := tracks_chain_none layer hd

theorem Nests.above (h : g.Nests d l) : g.above.Tracks d l.above := by
  have hunary : Counting.Tracks d d g.above.unary l.above.unary := h.unary.signed h.comparison.primary
  have hpower : Counting.Tracks d d g.above.power l.above.power := h.power.raised hunary
  have hchain (layer : Layer) (left : Expr) (k : Nat) : Counting.Tracks d (d - k)
      (g.above.continuation layer left k) (l.above.continuation layer left) := by
    rw [Level.continuation_above]
    have hlayer := h.chain layer left k
    cases layer <;> exact hlayer
  have hfactor : Counting.Tracks d d g.above.factor l.above.factor :=
    hpower.chained fun left => hchain .factor left 0
  have hterm : Counting.Tracks d d g.above.term l.above.term :=
    hfactor.chained fun left => hchain .term left 0
  refine ⟨hunary, hpower, fun layer => ?_, hchain⟩
  cases layer with
  | comparison => exact hterm.chained fun left => hchain .comparison left 0
  | term => exact hterm
  | factor => exact hfactor

/-- The levels that are left and those that were entered add up to all of them. -/
theorem nests_unrolled (n d : Nat) (h : n + d = maxNesting) :
    (unrolled n).Nests d (Level.ofNesting n) := by
  induction n generalizing d with
  | zero => exact nests_none (by omega)
  | succ n ih => exact (ih (d + 1) (by omega)).above.nests (by omega)

/-- A production that succeeds leaves the counter as it has found it, or behind a chain as it was in front of
the operators. -/
theorem depth_restored (h : n + d = maxNesting) (tokens : List Token) (e : Expr) (s : Cursor) :
    ((unrolled (n + 1)).unary ⟨tokens, d⟩ = .ok (e, s) → s.depth = d) ∧
    ((unrolled (n + 1)).power ⟨tokens, d⟩ = .ok (e, s) → s.depth = d) ∧
    ∀ layer, ((unrolled (n + 1)).whole layer ⟨tokens, d⟩ = .ok (e, s) → s.depth = d) ∧
      ∀ left k, (unrolled (n + 1)).continuation layer left k ⟨tokens, d⟩ = .ok (e, s) → s.depth = d - k := by
  have hlevel := (nests_unrolled n d h).above
  refine ⟨hlevel.unary.depth_eq, hlevel.power.depth_eq, fun layer => ⟨(hlevel.whole layer).depth_eq, ?_⟩⟩
  exact fun left k => (hlevel.continuation layer left k).depth_eq

end Grammar

/-- Counting up the levels that are entered reads the same as counting down those that are left. -/
theorem parse_eq (tokens : List Token) : parse tokens = Formula.parse tokens := by
  unfold parse Formula.parse
  cases tokens with
  | nil => rfl
  | cons token rest =>
    have hread := (Grammar.nests_unrolled maxNesting 0 (Nat.add_zero _)).comparison (token :: rest)
    dsimp only
    rw [hread]
    cases (Level.ofNesting maxNesting).comparison (token :: rest) with
    | error stop => rfl
    | ok read =>
      obtain ⟨e, behind⟩ := read
      cases behind <;> rfl

end Counting

end Tabular.Formula
