import Tabular.Proofs.Text.Lines
import Tabular.Render.Markdown

/-!
# Reading Markdown tables

A line of a table is divided at its bare pipes, those that do not stand right behind a backslash. Every
pipe of a cell stands behind a backslash, and the blanks around a cell keep a backslash at its end from
the pipe behind it, so that the cells of a line are found between its bare pipes.
-/
namespace Tabular.Markdown

/-- The characters of a text, each with the one before it. -/
def withBefore (before : Char) (cs : List Char) : List (Char × Char) := (before :: cs).zip cs

/-- Whether a character is a pipe and the one before it no backslash. -/
def isBare (c : Char × Char) : Bool := c.2 = '|' && c.1 ≠ '\\'

/-- The number of pipes in a line that do not stand right behind a backslash. -/
def barePipes (line : List Char) : Nat := (withBefore '\n' line).countP isBare

/-- The parts of a line between its bare pipes. -/
def divide (line : List Char) : List (List Char) :=
  ((withBefore '\n' line).splitOnP isBare).map (List.map (·.2))

/-- A cell without the one blank that stands on each side of it. -/
def unpad? : List Char → Option (List Char)
  | ' ' :: cs => if cs.getLast? = some ' ' then some cs.dropLast else none
  | _ => none

/-- The text of a written cell, in which a pipe stands behind a backslash. -/
def unescape : List Char → List Char
  | [] => []
  | '\\' :: '|' :: cs => '|' :: unescape cs
  | c :: cs => c :: unescape cs

/-- The texts of the cells in a line, which stand between a pipe at the start of the line and one at its
end, with a blank on each side. -/
def readLine? (line : List Char) : Option (List (List Char)) :=
  match divide line with
  | [] :: parts =>
    if parts.getLast? = some [] then parts.dropLast.mapM fun part => (unpad? part).map unescape
    else none
  | _ => none

/-- A text on one line, with a blank in place of each line break. -/
def oneLine (s : String) : List Char := s.toList.map fun c => if c = '\n' then ' ' else c

theorem withBefore_cons (before c : Char) (cs : List Char) :
    withBefore before (c :: cs) = (before, c) :: withBefore c cs := rfl

theorem withBefore_append (before : Char) (cs rest : List Char) :
    withBefore before (cs ++ rest) =
      withBefore before cs ++ withBefore (cs.getLastD before) rest := by
  induction cs generalizing before with
  | nil => rfl
  | cons c cs ih =>
    rw [List.cons_append, withBefore_cons, withBefore_cons, ih, List.cons_append, List.getLastD_cons]

theorem map_withBefore (before : Char) (cs : List Char) : (withBefore before cs).map (·.2) = cs := by
  induction cs generalizing before with
  | nil => rfl
  | cons c cs ih => exact congrArg (c :: ·) (ih c)

/-- No pipe in the text is bare, whatever stands before the text. -/
def Whole (cs : List Char) : Prop := ∀ before, ∀ c ∈ withBefore before cs, isBare c = false

theorem Whole.append {cs rest : List Char} (h : Whole cs) (h' : Whole rest) : Whole (cs ++ rest) := by
  intro before c hc
  rw [withBefore_append, List.mem_append] at hc
  rcases hc with hc | hc
  · exact h before c hc
  · exact h' _ c hc

theorem Whole.nil : Whole [] := fun _ => nofun

/-- A text without pipes is whole. -/
theorem Whole.of_not_mem {cs : List Char} (h : '|' ∉ cs) : Whole cs := by
  intro before c hc
  have hmem : c.2 ∈ cs := (List.of_mem_zip hc).2
  have hne : c.2 ≠ '|' := fun heq => h (heq ▸ hmem)
  simp [isBare, hne]

theorem whole_escape (cell : List Char) : Whole (escape cell) := by
  induction cell with
  | nil => exact Whole.nil
  | cons c cell ih =>
    rw [escape, List.flatMap_cons]
    refine Whole.append ?_ ih
    split
    · intro before c hc
      have hc : c = (before, '\\') ∨ c = ('\\', '|') := by simpa [withBefore] using hc
      rcases hc with rfl | rfl <;> rfl
    · split
      · exact Whole.of_not_mem (by decide)
      · exact Whole.of_not_mem (by simpa using Ne.symm ‹_›)

theorem whole_rule (c : Column) : Whole (rule c) := by
  apply Whole.of_not_mem
  rw [rule]
  split <;> decide

/-- A cell as it stands between pipes. -/
def padded (cell : List Char) : List Char := ' ' :: cell ++ [' ']

/-- A line of written cells without the line break at its end. -/
def bordered (cells : List (List Char)) : List Char :=
  '|' :: cells.flatMap fun cell => padded cell ++ ['|']

theorem line_eq {cells : List (List Char)} (h : cells ≠ []) : line cells = bordered cells ++ ['\n'] := by
  have hjoined (cell : List Char) (rest : List (List Char)) :
      [' ', '|', ' '].intercalate (cell :: rest) ++ [' ', '|'] =
        cell ++ [' ', '|'] ++ rest.flatMap fun cell => padded cell ++ ['|'] := by
    induction rest generalizing cell with
    | nil => simp
    | cons next rest ih =>
      rw [List.intercalate_cons_cons, List.append_assoc, ih]
      simp [padded]
  obtain ⟨cell, rest, rfl⟩ := List.exists_cons_of_ne_nil h
  have hline : line (cell :: rest) =
      ['|', ' '] ++ ([' ', '|', ' '].intercalate (cell :: rest) ++ [' ', '|']) ++ ['\n'] := by
    simp [line]
  rw [hline, hjoined]
  simp [bordered, padded]

/-- A whole cell between pipes is a part of the line. -/
theorem splitOnP_padded {cell : List Char} (h : Whole cell) (before : Char) (rest : List Char) :
    (withBefore before (padded cell ++ '|' :: rest)).splitOnP isBare =
      withBefore before (padded cell) :: (withBefore '|' rest).splitOnP isBare := by
  have hblank : Whole [' '] := Whole.of_not_mem (by decide)
  have hwhole : Whole (padded cell) := (hblank.append h).append hblank
  have hlast : (padded cell).getLastD before = ' ' := List.getLastD_concat ..
  rw [withBefore_append, hlast, withBefore_cons]
  exact List.splitOnP_append_cons_of_forall_mem (hwhole before) (' ', '|') rfl _

theorem divide_bordered {cells : List (List Char)} (h : ∀ cell ∈ cells, Whole cell) :
    divide (bordered cells) = [] :: cells.map padded ++ [[]] := by
  have hparts (before : Char) : ((withBefore before (cells.flatMap fun cell => padded cell ++ ['|'])).splitOnP
      isBare).map (List.map (·.2)) = cells.map padded ++ [[]] := by
    induction cells generalizing before with
    | nil => rfl
    | cons cell rest ih =>
      obtain ⟨hcell, hrest⟩ := List.forall_mem_cons.mp h
      rw [List.flatMap_cons, List.append_assoc, List.singleton_append, splitOnP_padded hcell,
        List.map_cons, map_withBefore, ih hrest, List.map_cons, List.cons_append]
  have hfirst : isBare ('\n', '|') = true := rfl
  rw [divide, bordered, withBefore_cons, List.splitOnP_cons_eq_if_modifyHead, if_pos hfirst, List.map_cons,
    hparts]
  rfl

theorem barePipes_bordered {cells : List (List Char)} (h : ∀ cell ∈ cells, Whole cell) :
    barePipes (bordered cells) = cells.length + 1 := by
  have hlength := congrArg List.length (divide_bordered h)
  rw [divide, List.length_map, Text.length_splitOnP] at hlength
  simpa [barePipes] using hlength

theorem unescape_cons {c : Char} {cs : List Char} (h : c ≠ '\\' ∨ cs.head? ≠ some '|') :
    unescape (c :: cs) = c :: unescape cs := by
  conv_lhs => unfold unescape
  split <;> simp_all

theorem head?_escape (cell : List Char) : (escape cell).head? ≠ some '|' := by
  cases cell with
  | nil => exact nofun
  | cons c cell =>
    rw [escape, List.flatMap_cons]
    split
    · exact fun h => by cases h
    · split
      · exact fun h => by cases h
      · simpa using ‹c ≠ '|'›

theorem unescape_escape (cell : List Char) :
    unescape (escape cell) = cell.map fun c => if c = '\n' then ' ' else c := by
  induction cell with
  | nil => rfl
  | cons c cell ih =>
    have hrest : cell.flatMap (fun c => if c = '|' then ['\\', '|'] else if c = '\n' then [' '] else [c]) =
        escape cell := rfl
    rw [escape, List.flatMap_cons, hrest, List.map_cons, ← ih]
    by_cases hpipe : c = '|'
    · rw [if_pos hpipe, hpipe]
      rfl
    · rw [if_neg hpipe]
      split
      · exact unescape_cons (.inl (by decide))
      · exact unescape_cons (.inr (head?_escape cell))

theorem unpad?_padded (cell : List Char) : unpad? (padded cell) = some cell := by
  rw [padded, List.cons_append, unpad?, if_pos (by simp), List.dropLast_concat]

theorem readLine?_bordered {cells : List (List Char)} (h : ∀ cell ∈ cells, Whole cell) :
    readLine? (bordered cells) = some (cells.map unescape) := by
  have hparts : (cells.map padded ++ [[]]).getLast? = some [] := List.getLast?_concat ..
  have hcell : (fun part => (unpad? part).map unescape) ∘ padded = fun cell => some (unescape cell) := by
    funext cell
    rw [Function.comp_apply, unpad?_padded, Option.map_some]
  rw [readLine?, divide_bordered h, List.cons_append]
  dsimp only
  rw [if_pos hparts, List.dropLast_concat, List.mapM_map, hcell]
  exact List.mapM_pure

theorem not_mem_bordered {cells : List (List Char)} (h : ∀ cell ∈ cells, '\n' ∉ cell) :
    '\n' ∉ bordered cells := by
  rw [bordered, List.mem_cons, List.mem_flatMap]
  rintro (hpipe | ⟨cell, hcell, hmem⟩)
  · cases hpipe
  · simp [padded, h cell hcell] at hmem

theorem not_mem_escape (cell : List Char) : '\n' ∉ escape cell := by
  rw [escape, List.mem_flatMap]
  rintro ⟨c, -, hc⟩
  split at hc
  · simp at hc
  · split at hc
    · simp at hc
    · exact ‹c ≠ '\n'› (List.mem_singleton.mp hc).symm

theorem not_mem_rule (c : Column) : '\n' ∉ rule c := by
  rw [rule]
  split <;> decide

/-- The line of a row of texts without the line break at its end. -/
def borderedRow (row : List String) : List Char := bordered (row.map fun s => escape s.toList)

def lines (precision : Option Nat) (t : Table) : List (List Char) :=
  borderedRow t.names :: bordered (t.columns.map rule) :: (t.displayRows precision).map borderedRow

theorem write_eq {precision : Option Nat} {t : Table} (h : t.columns ≠ []) :
    (write precision t).toList = Text.unlines (lines precision t) := by
  have hcount : 0 < t.columnCount := List.length_pos_iff.mpr h
  have hline (row : List String) (hlength : row.length = t.columnCount) :
      rowLine row = borderedRow row ++ ['\n'] := by
    refine line_eq (List.ne_nil_of_length_pos ?_)
    rwa [List.length_map, hlength]
  have hedges : line (t.columns.map rule) = bordered (t.columns.map rule) ++ ['\n'] :=
    line_eq (mt List.map_eq_nil_iff.mp h)
  have hrows : (t.displayRows precision).flatMap rowLine =
      (t.displayRows precision).flatMap fun row => borderedRow row ++ ['\n'] :=
    List.flatMap_congr fun row hrow => hline row (Table.length_of_mem_displayRows hrow)
  rw [write, if_neg h, String.toList_ofList, hline t.names (List.length_map ..), hedges, hrows, lines,
    Text.unlines_cons, Text.unlines_cons, Text.unlines, List.flatMap_map]
  simp

/-- The cells of every line are whole and without line breaks, one for each column. -/
theorem exists_of_mem_lines {precision : Option Nat} {t : Table} {line : List Char}
    (h : line ∈ lines precision t) : ∃ cells, line = bordered cells ∧ cells.length = t.columnCount ∧
      (∀ cell ∈ cells, Whole cell) ∧ ∀ cell ∈ cells, '\n' ∉ cell := by
  have hrow (row : List String) (hlength : row.length = t.columnCount) :
      ∃ cells, borderedRow row = bordered cells ∧ cells.length = t.columnCount ∧
        (∀ cell ∈ cells, Whole cell) ∧ ∀ cell ∈ cells, '\n' ∉ cell :=
    ⟨_, rfl, (List.length_map ..).trans hlength, List.forall_mem_map.mpr fun s _ => whole_escape _,
      List.forall_mem_map.mpr fun s _ => not_mem_escape _⟩
  rw [lines, List.mem_cons, List.mem_cons, List.mem_map] at h
  rcases h with rfl | rfl | ⟨row, hmem, rfl⟩
  · exact hrow t.names (List.length_map ..)
  · exact ⟨_, rfl, List.length_map .., List.forall_mem_map.mpr fun c _ => whole_rule c,
      List.forall_mem_map.mpr fun c _ => not_mem_rule c⟩
  · exact hrow row (Table.length_of_mem_displayRows hmem)

theorem readLine?_borderedRow (row : List String) : readLine? (borderedRow row) = some (row.map oneLine) := by
  rw [borderedRow, readLine?_bordered (List.forall_mem_map.mpr fun s _ => whole_escape _), List.map_map]
  exact congrArg some (List.map_congr_left fun s _ => unescape_escape _)

theorem readLine?_rules (columns : List Column) :
    readLine? (bordered (columns.map rule)) = some (columns.map rule) := by
  have hplain (c : Column) : unescape (rule c) = rule c := by
    rw [rule]
    split <;> rfl
  rw [readLine?_bordered (List.forall_mem_map.mpr fun c _ => whole_rule c), List.map_map]
  exact congrArg some (List.map_congr_left fun c _ => hplain c)

/-- A table with columns is written in a line for its names, one for its edges and one for each row. A
line has one bare pipe more than there are columns, and the texts that it shows are read from it again,
with a blank in place of each line break. -/
theorem write_readable (precision : Option Nat) {t : Table} (h : t.columns ≠ []) :
    ∃ header edges body,
      (write precision t).toList.splitOn '\n' = header :: edges :: body ++ [[]] ∧
      body.length = t.rowCount ∧
      (∀ line ∈ header :: edges :: body, barePipes line = t.columnCount + 1) ∧
      readLine? header = some (t.names.map oneLine) ∧
      readLine? edges = some (t.columns.map rule) ∧
      body.map readLine? = (t.displayRows precision).map fun row => some (row.map oneLine) := by
  refine ⟨borderedRow t.names, bordered (t.columns.map rule), (t.displayRows precision).map borderedRow,
    ?_, ?_, fun line hline => ?_, readLine?_borderedRow t.names, readLine?_rules t.columns, ?_⟩
  · rw [write_eq h]
    refine Text.splitOn_unlines fun line hline => ?_
    obtain ⟨cells, rfl, -, -, hbreaks⟩ := exists_of_mem_lines hline
    exact not_mem_bordered hbreaks
  · rw [List.length_map, Table.length_displayRows]
  · have hline : line ∈ lines precision t := hline
    obtain ⟨cells, rfl, hlength, hwhole, -⟩ := exists_of_mem_lines hline
    rw [barePipes_bordered hwhole, hlength]
  · rw [List.map_map]
    exact List.map_congr_left fun row _ => readLine?_borderedRow row

/-- A table whose texts hold pipes, backslashes before pipes and at their ends, line breaks and blanks. -/
def paths : Table :=
  ⟨[⟨"a|b", .mixed, [.text "\\|", .text " x\n"]⟩, ⟨"\\", .mixed, [.text "|\\", .number 0.5]⟩], 2⟩

theorem write_readable_paths : paths.columns ≠ [] ∧
    ∃ header edges body,
      (write (some 0) paths).toList.splitOn '\n' = header :: edges :: body ++ [[]] ∧
      (∀ line ∈ header :: edges :: body, barePipes line = 3) ∧
      readLine? header = some ["a|b".toList, "\\".toList] ∧
      body.map readLine? = [some ["\\|".toList, "|\\".toList], some [" x ".toList, "0".toList]] := by
  have hcolumns : paths.columns ≠ [] := List.cons_ne_nil _ _
  have hrows : paths.displayRows (some 0) = [["\\|", "|\\"], [" x\n", "0"]] := by decide +kernel
  obtain ⟨header, edges, body, hlines, -, hpipes, hheader, -, hbody⟩ := write_readable (some 0) hcolumns
  rw [hrows] at hbody
  refine ⟨hcolumns, header, edges, body, hlines, hpipes, hheader.trans ?_, hbody.trans ?_⟩
  · decide +kernel
  · decide +kernel

end Tabular.Markdown
