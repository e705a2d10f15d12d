import Tabular.Text.Pieces
import Tabular.Number.Layout

/-!
# Cell addresses and ranges

`C1` names column C of the first data row; the header is not counted. Columns are numbered in
bijective base 26, which has no zero digit. A range such as `A1:C5` is the inclusive rectangle
between two corners, whichever corners are written.
-/
namespace Tabular

def natText (n : Nat) : String := String.ofList (Nat.toDigits 10 n)

/-- The greatest number that a row or a column can have, counted from one. -/
def maxOrdinal : Nat := UInt64.size - 1

def ordinalLetters (n : Nat) : List Char :=
  if n = 0 then []
  else ordinalLetters ((n - 1) / 26) ++ [Char.ofNat ('A'.toNat + (n - 1) % 26)]
termination_by n
decreasing_by omega

/-- The letters of a column counted from zero: A, B, …, Z, AA, AB, …. -/
def columnLetters (index : Nat) : String := String.ofList (ordinalLetters (index + 1))

/-- The digit that an ASCII letter of either case stands for, from 1 to 26. -/
def letterDigit? (c : Char) : Option Nat :=
  if c.isAlpha then some (c.toUpper.toNat - 'A'.toNat + 1) else none

/-- The column counted from one that follows `n` once a further letter is read, if it has a number. -/
def ordinalStep? (n : Nat) (c : Char) : Option Nat :=
  (letterDigit? c).bind fun digit =>
    let next := 26 * n + digit
    if next ≤ maxOrdinal then some next else none

def columnOfLetters? (letters : List Char) : Option Nat :=
  if letters = [] then none else (letters.foldlM ordinalStep? 0).map (· - 1)

/-- The letters and digits of a text that is one or more ASCII letters followed by one or more
ASCII digits. -/
def splitCell? (cs : List Char) : Option (List Char × List Char) :=
  let letters := cs.takeWhile Char.isAlpha
  let digits := cs.dropWhile Char.isAlpha
  if letters ≠ [] ∧ digits ≠ [] ∧ digits.all Char.isDigit then some (letters, digits) else none

def looksLikeCell (s : String) : Bool := (splitCell? s.toList).isSome

/-- A cell, counted from zero on both axes. -/
structure CellAddress where
  row : Nat
  column : Nat
  deriving DecidableEq, Repr

/-- An inclusive rectangle of cells, from its top left to its bottom right. -/
structure RangeAddress where
  start : CellAddress
  stop : CellAddress
  deriving DecidableEq, Repr

def CellAddress.toText (a : CellAddress) : String := columnLetters a.column ++ natText (a.row + 1)

namespace RangeAddress

def between (a b : CellAddress) : RangeAddress where
  start := ⟨min a.row b.row, min a.column b.column⟩
  stop := ⟨max a.row b.row, max a.column b.column⟩

def toText (r : RangeAddress) : String := r.start.toText ++ ":" ++ r.stop.toText

def height (r : RangeAddress) : Nat := r.stop.row - r.start.row + 1

def width (r : RangeAddress) : Nat := r.stop.column - r.start.column + 1

end RangeAddress

/-- Why a text names no cells, or none that can be used. -/
inductive AddressFault
  | notCell (text : String)
  | columnTooLarge (text : String)
  | rowTooLarge (text : String)
  | rowZero (text : String)
  | notRange (text : String)
  | outsideTable (cell : CellAddress) (rows columns : Nat)
  | startsOutside (range : RangeAddress) (rows columns : Nat)
  | outsideSheet (text : String) (rows columns : Nat)
  deriving DecidableEq, Repr

def sizeText (rows columns : Nat) : String := natText rows ++ " rows x " ++ natText columns ++ " columns"

def AddressFault.message : AddressFault → String
  | notCell text => "'" ++ text ++ "' is not a cell address"
  | columnTooLarge text => "column out of range in '" ++ text ++ "'"
  | rowTooLarge text => "row out of range in '" ++ text ++ "'"
  | rowZero text => "row number must be >= 1 in '" ++ text ++ "'"
  | notRange text => "'" ++ text ++ "' is not a range"
  | outsideTable cell rows columns =>
    cell.toText ++ " is outside the table (" ++ sizeText rows columns ++ ")"
  | startsOutside range rows columns =>
    range.toText ++ " starts outside the table (" ++ sizeText rows columns ++ ")"
  | outsideSheet text rows columns =>
    "'" ++ text ++ "' lies outside a " ++ natText rows ++ " x " ++ natText columns ++ " worksheet"

/-- Reads an address such as `B12`, in either case and with blanks around it. -/
def CellAddress.parse (s : String) : Except AddressFault CellAddress :=
  let text := Text.trim s
  match splitCell? text.toList with
  | none => .error (.notCell text)
  | some (letters, digits) => match columnOfLetters? letters with
    | none => .error (.columnTooLarge text)
    | some column =>
      let row := Number.digitsValue digits
      if maxOrdinal < row then .error (.rowTooLarge text)
      else if row = 0 then .error (.rowZero text)
      else .ok ⟨row - 1, column⟩

def RangeAddress.parseCorners (a b : String) : Except AddressFault RangeAddress := do
  let a ← CellAddress.parse a
  let b ← CellAddress.parse b
  return between a b

/-- Reads a range such as `A1:C5`. -/
def RangeAddress.parse (s : String) : Except AddressFault RangeAddress :=
  match Text.splitFirst? ':' s.toList with
  | none => .error (.notRange s)
  | some (a, b) => parseCorners (String.ofList a) (String.ofList b)

end Tabular
