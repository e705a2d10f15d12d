import Tabular.Value.Order

/-!
# Tokens of formulas

The words of a formula and how messages show them.
-/
namespace Tabular.Formula

inductive BinaryOp
  | add
  | subtract
  | multiply
  | divide
  | power
  | compare (op : Comparison)
  deriving DecidableEq, Repr

def BinaryOp.symbol : BinaryOp → String
  | add => "+"
  | subtract => "-"
  | multiply => "*"
  | divide => "/"
  | power => "^"
  | compare op => op.symbol

inductive Token
  | number (n : Float)
  | text (s : String)
  /-- A function, a cell or a truth value. -/
  | name (s : String)
  | operator (op : BinaryOp)
  | openParen
  | closeParen
  | comma
  | colon
  deriving DecidableEq, Repr

def Token.described : Token → String
  | number n => "Number(" ++ String.ofList (Number.Layout.message.text n) ++ ")"
  | text s => "Text(" ++ Text.quoted s ++ ")"
  | name s => "Identifier(" ++ Text.quoted s ++ ")"
  | operator op => "Operator(" ++ Text.quoted op.symbol ++ ")"
  | openParen => "OpenParen"
  | closeParen => "CloseParen"
  | comma => "Comma"
  | colon => "Colon"

inductive LexicalCause
  | unexpectedCharacter (c : Char)
  | unterminatedText
  | invalidNumber (text : String)
  deriving DecidableEq, Repr

def LexicalCause.message : LexicalCause → String
  | unexpectedCharacter c => "Unexpected character: '" ++ c.toString ++ "'"
  | unterminatedText => "Unterminated string literal"
  | invalidNumber text => "Invalid number: " ++ text

/-- A cause and the number of characters before it, counted after the leading equals sign. -/
structure LexicalFault where
  cause : LexicalCause
  position : Nat
  deriving DecidableEq, Repr

def LexicalFault.message (f : LexicalFault) : String :=
  "Tokenize error at position " ++ String.ofList (Nat.toDigits 10 f.position) ++ ": " ++
    f.cause.message

end Tabular.Formula
