import Mathlib.Data.List.Basic

/-!
# Lines

A text that is written line by line, with a line break behind each line, is divided into these lines at
its line breaks if there is none inside a line.
-/
namespace Tabular.Text

/-- The text of lines, each with a line break behind it. -/
def unlines (lines : List (List Char)) : List Char := lines.flatMap (· ++ ['\n'])

theorem unlines_cons (line : List Char) (lines : List (List Char)) :
    unlines (line :: lines) = line ++ '\n' :: unlines lines := by
  rw [unlines, List.flatMap_cons, List.append_assoc]
  rfl

theorem length_splitOnP {α : Type} (p : α → Bool) (l : List α) :
    (l.splitOnP p).length = l.countP p + 1 := by
  induction l with
  | nil => rfl
  | cons a l ih =>
    rw [List.splitOnP_cons_eq_if_modifyHead, List.countP_cons]
    split
    · rw [List.length_cons, ih]
    · rw [List.length_modifyHead, ih]

/-- Lines without line breaks are found again, and behind the last line break there is nothing. -/
theorem splitOn_unlines {lines : List (List Char)} (h : ∀ line ∈ lines, '\n' ∉ line) :
    (unlines lines).splitOn '\n' = lines ++ [[]] := by
  induction lines with
  | nil => rfl
  | cons line lines ih =>
    obtain ⟨hline, hlines⟩ := List.forall_mem_cons.mp h
    rw [unlines_cons, List.splitOn_append_cons_self_of_not_mem hline, ih hlines, List.cons_append]

/-- There are as many lines as were written, and one more for each line break inside one of them. -/
theorem length_splitOn_unlines (lines : List (List Char)) :
    ((unlines lines).splitOn '\n').length = lines.length + lines.flatten.count '\n' + 1 := by
  have hcount : (unlines lines).count '\n' = lines.length + lines.flatten.count '\n' := by
    induction lines with
    | nil => rfl
    | cons line lines ih =>
      rw [unlines_cons, List.count_append, List.count_cons_self, ih, List.length_cons, List.flatten_cons,
        List.count_append]
      omega
  rw [← hcount]
  exact length_splitOnP _ _

/-- The number of lines is right only if there is no line break inside any of them. -/
theorem length_splitOn_unlines_eq_iff {lines : List (List Char)} :
    ((unlines lines).splitOn '\n').length = lines.length + 1 ↔ ∀ line ∈ lines, '\n' ∉ line := by
  have hnone : lines.flatten.count '\n' = 0 ↔ ∀ line ∈ lines, '\n' ∉ line := by
    rw [List.count_eq_zero, List.mem_flatten]
    simp
  rw [length_splitOn_unlines, ← hnone]
  omega

end Tabular.Text
