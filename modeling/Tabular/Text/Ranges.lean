/-!
# Ranges of code points

A property of characters is a list of closed ranges, ascending and apart; a character has the
property when one of the ranges holds its code point.
-/
namespace Tabular.Text

/-- Whether some closed range holds `n`. -/
def inRanges (ranges : List (Nat × Nat)) (n : Nat) : Bool :=
  ranges.any fun r => r.1 ≤ n && n ≤ r.2

/-- Ranges are non-empty, ascending, and no two of them touch. -/
def Ascending : List (Nat × Nat) → Prop
  | [] => True
  | [r] => r.1 ≤ r.2
  | r :: s :: rest => r.1 ≤ r.2 ∧ r.2 + 1 < s.1 ∧ Ascending (s :: rest)

theorem inRanges_iff {ranges : List (Nat × Nat)} {n : Nat} :
    inRanges ranges n = true ↔ ∃ r ∈ ranges, r.1 ≤ n ∧ n ≤ r.2 := by
  simp [inRanges]

theorem inRanges_append (ranges others : List (Nat × Nat)) (n : Nat) :
    inRanges (ranges ++ others) n = (inRanges ranges n || inRanges others n) :=
  List.any_append

end Tabular.Text
