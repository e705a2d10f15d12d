import Tabular.Document.Basic

/-!
# Writing documents

Documents are written over several lines, each level two blanks further in. In texts only the
quote, the backslash and the control characters of ASCII are escaped.
-/
namespace Tabular.Document

def escape (c : Char) : List Char :=
  match c with
  | '"' => ['\\', '"']
  | '\\' => ['\\', '\\']
  | '\x08' => ['\\', 'b']
  | '\x0c' => ['\\', 'f']
  | '\n' => ['\\', 'n']
  | '\r' => ['\\', 'r']
  | '\t' => ['\\', 't']
  | c =>
    if c.toNat < 0x20 then
      ['\\', 'u', '0', '0', Nat.digitChar (c.toNat / 16), Nat.digitChar (c.toNat % 16)]
    else [c]

def writeText (s : String) : List Char := '"' :: s.toList.flatMap escape ++ ['"']

/-- The written form of a double; what is not finite has none and is written as null. -/
def writeNumber (x : Float) : List Char :=
  if x.isFinite then Number.Layout.interchange.text x else ['n', 'u', 'l', 'l']

/-- A line break and the blanks before what stands on a level. -/
def newLine (level : Nat) : List Char := '\n' :: List.replicate (2 * level) ' '

/-- Items between brackets, each on a line of its own. -/
def writeBlock (opening closing : Char) (level : Nat) : List (List Char) → List Char
  | [] => [opening, closing]
  | items =>
    opening :: [','].intercalate (items.map (newLine (level + 1) ++ ·)) ++ newLine level ++ [closing]

mutual

def write (level : Nat) : Document → List Char
  | null => ['n', 'u', 'l', 'l']
  | boolean true => ['t', 'r', 'u', 'e']
  | boolean false => ['f', 'a', 'l', 's', 'e']
  | whole n => Number.intText n
  | number x => writeNumber x
  | text s => writeText s
  | list items => writeBlock '[' ']' level (writeItems (level + 1) items)
  | object fields => writeBlock '\x7b' '\x7d' level (writeFields (level + 1) fields)

def writeItems (level : Nat) : List Document → List (List Char)
  | [] => []
  | item :: rest => write level item :: writeItems level rest

def writeFields (level : Nat) : List (String × Document) → List (List Char)
  | [] => []
  | (name, value) :: rest =>
    (writeText name ++ ':' :: ' ' :: write level value) :: writeFields level rest

end

def toText (d : Document) : String := String.ofList (d.write 0 ++ ['\n'])

end Tabular.Document
