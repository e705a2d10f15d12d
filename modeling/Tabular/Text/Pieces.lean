import Tabular.Text.Blank

/-!
# Cutting, joining and replacing text

The work is on lists of characters; the strings' versions only convert. Letter case is that of
ASCII: other characters have no other case here.
-/
namespace Tabular.Text

def upper (s : String) : String := String.ofList (s.toList.map Char.toUpper)

def lower (s : String) : String := String.ofList (s.toList.map Char.toLower)

/-- Whether two texts differ at most in the case of ASCII letters. -/
def sameUpToCase (s t : String) : Bool := s.toList.map Char.toLower == t.toList.map Char.toLower

/-- The text before the first `separator` and the text after it. -/
def splitFirst? (separator : Char) : List Char → Option (List Char × List Char)
  | [] => none
  | c :: cs =>
    if c = separator then some ([], cs)
    else (splitFirst? separator cs).map fun (before, after) => (c :: before, after)

/-- The pieces between the occurrences of `separator`, one more than there are occurrences. -/
def pieces (separator : Char) : List Char → List (List Char)
  | [] => [[]]
  | c :: cs =>
    if c = separator then [] :: pieces separator cs
    else match pieces separator cs with
      | [] => [[c]]
      | piece :: rest => (c :: piece) :: rest

/-- The comma-separated items of a list, without the blanks around them; blank items are left out. -/
def items (s : String) : List String :=
  ((pieces ',' s.toList).map trimmed |>.filter (· ≠ [])).map String.ofList

/-- Replaces each occurrence of `find`, from the left and without overlap. An empty `find` occurs
nowhere. -/
def replaceAll (find replacement : List Char) : List Char → List Char
  | [] => []
  | c :: cs =>
    if find ≠ [] ∧ find.isPrefixOf (c :: cs) then
      replacement ++ replaceAll find replacement (cs.drop (find.length - 1))
    else c :: replaceAll find replacement cs
termination_by cs => cs.length
decreasing_by
  · simp only [List.length_drop, List.length_cons]
    omega
  · simp

/-- The text with blanks put in front of it up to `width` characters. -/
def padStart (width : Nat) (cs : List Char) : List Char :=
  List.replicate (width - cs.length) ' ' ++ cs

/-- The text with blanks put after it up to `width` characters. -/
def padEnd (width : Nat) (cs : List Char) : List Char :=
  cs ++ List.replicate (width - cs.length) ' '

end Tabular.Text
