import Tabular.Number.Double
import Tabular.Number.Layout
import Tabular.Text.Pieces
import Tabular.Text.Quoted

/-!
# Cell values

A value is the scalar in every cell and the result of every formula. What goes wrong in a formula
is a value too, so that one bad cell does not stop a whole table.
-/
namespace Tabular

/-- What can be wrong inside a cell, in the order in which errors sort. -/
inductive CellError
  | divByZero
  | invalidRef
  | typeMismatch
  | unknownFunction
  | malformed
  deriving DecidableEq, Repr

namespace CellError

def literal : CellError → String
  | divByZero => "#DIV/0!"
  | invalidRef => "#REF!"
  | typeMismatch => "#VALUE!"
  | unknownFunction => "#NAME?"
  | malformed => "#PARSE!"

/-- All errors, in order. -/
def all : List CellError := [divByZero, invalidRef, typeMismatch, unknownFunction, malformed]

/-- The error that a text denotes, whatever the case of its letters and the blanks around it. -/
def ofLiteral? (text : String) : Option CellError :=
  all.find? fun e => Text.upper (Text.trim text) == e.literal

def name : CellError → String
  | divByZero => "DivByZero"
  | invalidRef => "InvalidRef"
  | typeMismatch => "TypeMismatch"
  | unknownFunction => "UnknownFunction"
  | malformed => "ParseError"

end CellError

/-- The type of a column; `mixed` holds values of several categories, or of none. -/
inductive ColumnType
  | number
  | text
  | boolean
  | mixed
  deriving DecidableEq, Repr

def ColumnType.name : ColumnType → String
  | number => "Number"
  | text => "Text"
  | boolean => "Boolean"
  | mixed => "Mixed"

inductive Value
  | number (n : Double)
  | text (s : String)
  | boolean (b : Bool)
  | missing
  | error (e : CellError)
  deriving DecidableEq, Repr

instance : Inhabited Value := ⟨.missing⟩

namespace Value

/-- The number, if the value is one. -/
def number? : Value → Option Double
  | number n => some n
  | _ => none

def isMissing : Value → Bool
  | missing => true
  | _ => false

theorem isMissing_iff {v : Value} : v.isMissing = true ↔ v = missing := by
  cases v <;> simp [isMissing]

def isError : Value → Bool
  | error _ => true
  | _ => false

/-- The column type that a present value belongs to. Missing cells and errors belong to none. -/
def category : Value → Option ColumnType
  | number _ => some .number
  | text _ => some .text
  | boolean _ => some .boolean
  | missing => none
  | error _ => none

def booleanText (b : Bool) : String := if b then "TRUE" else "FALSE"

def toText : Value → String
  | number n => Number.cellText n.toFloat
  | text s => s
  | boolean b => booleanText b
  | missing => ""
  | error e => e.literal

/-- The value as messages show it, with its kind. -/
def described : Value → String
  | number n => "Number(" ++ String.ofList (Number.Layout.message.text n.toFloat) ++ ")"
  | text s => "Text(" ++ Text.quoted s ++ ")"
  | boolean b => "Boolean(" ++ (if b then "true" else "false") ++ ")"
  | missing => "Missing"
  | error e => "Error(" ++ e.name ++ ")"

/-- The value as an operand of arithmetic, where a missing cell counts as zero. -/
def operand : Value → Except CellError Double
  | number n => .ok n
  | missing => .ok 0.0
  | error e => .error e
  | text _ => .error .typeMismatch
  | boolean _ => .error .typeMismatch

/-- A finite number as a value; what is no finite number has no cell to stand in. -/
def ofFloat (n : Float) : Value := if n.isFinite then number n else error .typeMismatch

/-- A count, which is a word of 64 bits, as a value. -/
def ofNat (n : Nat) : Value := number n.toUInt64.toFloat

def ofExcept : Except CellError Value → Value
  | .ok v => v
  | .error e => error e

/-- Reads untyped text. Blank text is missing; then come the words for truth values, the errors'
notations and finite numbers; everything else is text, kept with the blanks around it. -/
def infer (s : String) : Value :=
  let trimmed := Text.trim s
  if trimmed = "" then missing
  else if Text.sameUpToCase trimmed "true" then boolean true
  else if Text.sameUpToCase trimmed "false" then boolean false
  else match CellError.ofLiteral? trimmed with
    | some e => error e
    | none => match Number.parseFinite? trimmed.toList with
      | some n => number n
      | none => text s

end Value

/-- Whether a value may stand in a column of a type. Missing cells and errors fit every type. -/
def ColumnType.admits (type : ColumnType) (v : Value) : Bool :=
  type = .mixed || v.category.all (· = type)

end Tabular
