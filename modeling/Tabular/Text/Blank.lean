import Tabular.Text.Ranges

/-!
# Blank characters

The characters with the Unicode property White_Space. All trimming and skipping in this library
is of these.
-/
namespace Tabular.Text

/-- The 25 white-space characters. -/
def blankRanges : List (Nat × Nat) :=
  [(0x09, 0x0D), (0x20, 0x20), (0x85, 0x85), (0xA0, 0xA0), (0x1680, 0x1680), (0x2000, 0x200A),
    (0x2028, 0x2029), (0x202F, 0x202F), (0x205F, 0x205F), (0x3000, 0x3000)]

def isBlank (c : Char) : Bool := inRanges blankRanges c.toNat

def trimStart (cs : List Char) : List Char := cs.dropWhile isBlank

def trimEnd (cs : List Char) : List Char := (cs.reverse.dropWhile isBlank).reverse

def trimmed (cs : List Char) : List Char := trimEnd (trimStart cs)

/-- `trimmed` on strings. -/
def trim (s : String) : String := String.ofList (trimmed s.toList)

end Tabular.Text
