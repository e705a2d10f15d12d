import Tabular.Text.Pieces
import Tabular.Value.Order

/-!
# Criteria

What SUMIF and COUNTIF look for: a comparison and an operand, written as one text such as `>100`,
`<>x` or `=5`, or a bare value that must be equal.
-/
namespace Tabular.Formula

structure Criterion where
  op : Comparison
  operand : Value
  deriving DecidableEq, Repr

namespace Criterion

/-- The comparison at the start of a criterion, the longest symbol first, and the text behind it. -/
def splitComparison? : List Char → Option (Comparison × List Char)
  | '<' :: '=' :: rest => some (.le, rest)
  | '>' :: '=' :: rest => some (.ge, rest)
  | '<' :: '>' :: rest => some (.ne, rest)
  | '<' :: rest => some (.lt, rest)
  | '>' :: rest => some (.gt, rest)
  | '=' :: rest => some (.eq, rest)
  | _ => none

/-- The operand that a text stands for: a number if it reads as one. -/
def operandOf (cs : List Char) : Value :=
  match Number.parseFinite? (Text.trimmed cs) with
  | some n => .number n
  | none => .text (String.ofList cs)

/-- Reads a criterion. Nothing behind a comparison stands for a blank cell. -/
def ofValue : Value → Criterion
  | .text s => match splitComparison? s.toList with
    | some (op, []) => ⟨op, .missing⟩
    | some (op, rest) => ⟨op, operandOf rest⟩
    | none => ⟨.eq, operandOf s.toList⟩
  | v => ⟨.eq, v⟩

/-- Whether a cell meets a criterion. Blank cells meet only blank ones. -/
def meets (c : Criterion) (cell : Value) : Bool :=
  if cell.isMissing && !c.operand.isMissing then false else cell.holds c.op c.operand

end Criterion

end Tabular.Formula
