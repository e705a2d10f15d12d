import Tabular.Formula.Token

/-!
# Expressions

The tree that a formula denotes. Addresses stay as written until a table is there to resolve them.
-/
namespace Tabular.Formula

inductive Sign
  | minus
  | plus
  deriving DecidableEq, Repr

inductive Expr
  | number (n : Float)
  | text (s : String)
  | boolean (b : Bool)
  | cell (address : String)
  /-- The rectangle between two corners. -/
  | range (corner opposite : String)
  | binary (op : BinaryOp) (left right : Expr)
  | unary (sign : Sign) (operand : Expr)
  | call (function : String) (arguments : List Expr)
  deriving Repr

def maxNesting : Nat := 256

inductive ParseCause
  | lexical (cause : LexicalCause)
  | empty
  | trailing (token : Token)
  | tooDeep
  | unclosedCall
  | unclosedParen
  | unexpected (token : Token)
  | unexpectedEnd
  | unknownName (name : String)
  | missingRangeEnd
  deriving DecidableEq, Repr

def ParseCause.message : ParseCause → String
  | lexical cause => cause.message
  | empty => "Empty expression"
  | trailing token => "Unexpected token after expression: Some(" ++ token.described ++ ")"
  | tooDeep => "Formula nests deeper than " ++ String.ofList (Nat.toDigits 10 maxNesting) ++ " levels"
  | unclosedCall => "Expected ')' after function arguments"
  | unclosedParen => "Expected ')' after expression"
  | unexpected token => "Unexpected token: " ++ token.described
  | unexpectedEnd => "Unexpected end of expression"
  | unknownName name => "Unknown identifier: " ++ name
  | missingRangeEnd => "Expected cell address after ':'"

/-- A cause and the number of tokens before it; for a lexical cause, the number of characters. -/
structure ParseFault where
  cause : ParseCause
  position : Nat
  deriving DecidableEq, Repr

def ParseFault.message (f : ParseFault) : String :=
  "Parse error at token " ++ String.ofList (Nat.toDigits 10 f.position) ++ ": " ++ f.cause.message

end Tabular.Formula
