import Tabular.Formula.Expr
import Tabular.Formula.Lexer
import Tabular.Address

/-!
# Reading expressions

From loosest to tightest, comparisons, sums and products chain to the left, powers group to the
right, and a sign binds tighter still. What may nest is bounded. The parsers of one nesting level
are built from those of the level below, which read what is nested one deeper: the contents of
parentheses and arguments, the operand of a sign, the right side of a power, and what follows
each further operator of a chain.
-/
namespace Tabular.Formula

/-- A cause and the number of tokens from there to the end. -/
structure Stop where
  cause : ParseCause
  remaining : Nat
  deriving DecidableEq, Repr

/-- Reads an expression and returns the tokens behind it. -/
abbrev Parser := List Token → Except Stop (Expr × List Token)

/-- The parsers of one nesting level. A chain continues behind an expression it has read. -/
structure Level where
  unary : Parser
  power : Parser
  factorChain : Expr → Parser
  factor : Parser
  termChain : Expr → Parser
  term : Parser
  comparisonChain : Expr → Parser
  comparison : Parser

/-- Below the deepest level nothing can be read. -/
def Level.none : Level :=
  let stop : Parser := fun tokens => .error ⟨.tooDeep, tokens.length⟩
  ⟨stop, stop, fun _ => stop, stop, fun _ => stop, stop, fun _ => stop, stop⟩

def BinaryOp.isFactor (op : BinaryOp) : Bool := op = .multiply || op = .divide

def BinaryOp.isTerm (op : BinaryOp) : Bool := op = .add || op = .subtract

def BinaryOp.isComparison : BinaryOp → Bool
  | .compare _ => true
  | _ => false

/-- Reads expressions with commas between them, at least one. -/
def argumentList (expression : Parser) (tokens : List Token) :
    Except Stop (List Expr × List Token) := do
  let (argument, rest) ← expression tokens
  match rest with
  | .comma :: rest =>
    if rest.length < tokens.length then
      let (others, rest) ← argumentList expression rest
      return (argument :: others, rest)
    else return ([argument], rest)
  | rest => return ([argument], rest)
termination_by tokens.length

/-- A name that no parenthesis follows: a truth value, a cell, or a range. -/
def named (name : String) (tokens : List Token) : Except Stop (Expr × List Token) :=
  if Text.sameUpToCase name "TRUE" then .ok (.boolean true, tokens)
  else if Text.sameUpToCase name "FALSE" then .ok (.boolean false, tokens)
  else if !looksLikeCell name then .error ⟨.unknownName name, tokens.length + 1⟩
  else match tokens with
    | .colon :: rest => match rest with
      | .name opposite :: rest' =>
        if looksLikeCell opposite then .ok (.range name opposite, rest')
        else .error ⟨.missingRangeEnd, rest.length⟩
      | _ => .error ⟨.missingRangeEnd, rest.length⟩
    | _ => .ok (.cell name, tokens)

def call (expression : Parser) (function : String) (tokens : List Token) :
    Except Stop (Expr × List Token) :=
  match tokens with
  | .closeParen :: rest => .ok (.call function [], rest)
  | tokens => do
    let (arguments, rest) ← argumentList expression tokens
    match rest with
    | .closeParen :: rest => return (.call function arguments, rest)
    | rest => throw ⟨.unclosedCall, rest.length⟩

def primary (expression : Parser) : Parser
  | .number n :: rest => .ok (.number n, rest)
  | .text s :: rest => .ok (.text s, rest)
  | .name function :: .openParen :: rest => call expression function rest
  | .name name :: rest => named name rest
  | .openParen :: tokens => do
    let (e, rest) ← expression tokens
    match rest with
    | .closeParen :: rest => return (e, rest)
    | rest => throw ⟨.unclosedParen, rest.length⟩
  | [] => .error ⟨.unexpectedEnd, 0⟩
  | token :: rest => .error ⟨.unexpected token, rest.length + 1⟩

/-- A signed operand, or one without a sign. -/
def signed (nested unsigned : Parser) : Parser
  | .operator .subtract :: tokens => do
    let (e, rest) ← nested tokens
    return (.unary .minus e, rest)
  | .operator .add :: tokens => do
    let (e, rest) ← nested tokens
    return (.unary .plus e, rest)
  | tokens => unsigned tokens

/-- An operand with a power of it, if one follows. -/
def raised (nested operand : Parser) (tokens : List Token) : Except Stop (Expr × List Token) := do
  let (base, rest) ← operand tokens
  match rest with
  | .operator .power :: rest =>
    let (exponent, rest) ← nested rest
    return (.binary .power base exponent, rest)
  | rest => return (base, rest)

/-- The operators of one kind and their right operands behind an expression. -/
def chain (accepts : BinaryOp → Bool) (operand : Parser) (next : Expr → Parser) (left : Expr) : Parser
  | .operator op :: tokens =>
    if accepts op then do
      let (right, rest) ← operand tokens
      next (.binary op left right) rest
    else .ok (left, .operator op :: tokens)
  | tokens => .ok (left, tokens)

def chained (operand : Parser) (chain : Expr → Parser) (tokens : List Token) :
    Except Stop (Expr × List Token) := do
  let (first, rest) ← operand tokens
  chain first rest

def Level.above (below : Level) : Level :=
  let unary := signed below.unary (primary below.comparison)
  let power := raised below.power unary
  let factorChain := chain BinaryOp.isFactor below.power below.factorChain
  let factor := chained power factorChain
  let termChain := chain BinaryOp.isTerm below.factor below.termChain
  let term := chained factor termChain
  let comparisonChain := chain BinaryOp.isComparison below.term below.comparisonChain
  let comparison := chained term comparisonChain
  { unary, power, factorChain, factor, termChain, term, comparisonChain, comparison }

/-- The parsers for at most `n` nesting levels. -/
def Level.ofNesting : Nat → Level
  | 0 => .none
  | n + 1 => (ofNesting n).above

def parse (tokens : List Token) : Except ParseFault Expr :=
  match tokens with
  | [] => .error ⟨.empty, 0⟩
  | tokens => match (Level.ofNesting maxNesting).comparison tokens with
    | .error stop => .error ⟨stop.cause, tokens.length - stop.remaining⟩
    | .ok (e, []) => .ok e
    | .ok (_, token :: rest) => .error ⟨.trailing token, tokens.length - (rest.length + 1)⟩

def parseText (s : String) : Except ParseFault Expr :=
  match tokenize s with
  | .error fault => .error ⟨.lexical fault.cause, fault.position⟩
  | .ok tokens => parse tokens

end Tabular.Formula
