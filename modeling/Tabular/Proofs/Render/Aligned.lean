import Mathlib.Data.List.DropRight
import Mathlib.Data.List.Forall2
import Mathlib.Data.List.GetD
import Tabular.Proofs.Text.Lines
import Tabular.Render.Aligned

/-!
# Reading aligned tables

The rule under the names shows where the columns stand: the name and the cells of a column stand at the
positions of its run of dashes, each in its own line, and between the runs there are blanks. Line breaks
inside a text are written as they are, so that such a text is divided between lines.
-/
namespace Tabular.Aligned

structure Run where
  start : Nat
  length : Nat
  deriving DecidableEq, Repr

/-- Whether a position in the line is one of the run. -/
def Run.Covers (run : Run) (i : Nat) : Prop := run.start ≤ i ∧ i < run.start + run.length

/-- The runs of dashes in characters behind another one, the first of them at a position. A run starts at
each dash that has none before it. -/
def runsFrom (position : Nat) (before : Char) : List Char → List Run
  | [] => []
  | c :: cs =>
    if c = '-' ∧ before ≠ '-' then
      ⟨position, ((c :: cs).takeWhile (· = '-')).length⟩ :: runsFrom (position + 1) c cs
    else runsFrom (position + 1) c cs

/-- The runs of dashes in a line, from left to right. -/
def dashRuns (line : List Char) : List Run := runsFrom 0 '\n' line

/-- The run is filled by a text, with blanks in front of it if it is set to the right and otherwise with blanks
behind it. -/
def Run.Shows (cs : List Char) (run : Run) (field : Bool × String) : Prop :=
  width field.2 ≤ run.length ∧
    (cs.drop run.start).take run.length = pad ⟨run.length, field.1⟩ field.2.toList

/-- Each run shows its text, which is set to its side, and there are only blanks outside of the runs. -/
structure Filled (runs : List Run) (sides : List Bool) (texts : List String) (cs : List Char) : Prop where
  shown : List.Forall₂ (Run.Shows cs) runs (sides.zip texts)
  between : ∀ i c, cs[i]? = some c → (∀ run ∈ runs, ¬ run.Covers i) → c = ' '

/-- The runs show the texts, up to blanks at the end of the line. -/
def InRuns (runs : List Run) (sides : List Bool) (texts : List String) (line : List Char) : Prop :=
  ∃ blanks, (∀ c ∈ blanks, Text.isBlank c = true) ∧ Filled runs sides texts (line ++ blanks)

theorem takeWhile_append_blanks {blanks : List Char} (h : '-' ∉ blanks) (cs : List Char) :
    (cs ++ blanks).takeWhile (· = '-') = cs.takeWhile (· = '-') := by
  induction cs with
  | nil =>
    cases blanks with
    | nil => rfl
    | cons c blanks => exact List.takeWhile_cons_of_neg (by simpa using Ne.symm (List.ne_of_not_mem_cons h))
  | cons c cs ih => rw [List.cons_append, List.takeWhile_cons, List.takeWhile_cons, ih]

/-- Blanks at the end of a line add no runs to it. -/
theorem runsFrom_append {blanks : List Char} (h : '-' ∉ blanks) (position : Nat) (before : Char)
    (cs : List Char) : runsFrom position before (cs ++ blanks) = runsFrom position before cs := by
  induction cs generalizing position before with
  | nil =>
    induction blanks generalizing position before with
    | nil => rfl
    | cons c blanks ih =>
      have hc : c ≠ '-' := Ne.symm (List.ne_of_not_mem_cons h)
      exact (if_neg fun hdash => hc hdash.1).trans (ih (List.not_mem_of_not_mem_cons h) (position + 1) c)
  | cons c cs ih =>
    rw [List.cons_append, runsFrom, ih, ← List.cons_append, takeWhile_append_blanks h, runsFrom]

theorem runsFrom_replicate (n position : Nat) (cs : List Char) :
    runsFrom position '-' (List.replicate n '-' ++ cs) = runsFrom (position + n) '-' cs := by
  induction n generalizing position with
  | zero => rfl
  | succ n ih =>
    rw [List.replicate_succ, List.cons_append, runsFrom, if_neg fun h => h.2 rfl, ih, Nat.add_right_comm,
      Nat.add_assoc]

/-- The runs of parts with the given lengths from a position on, with two blanks behind each of them. -/
def spans (position : Nat) : List Nat → List Run
  | [] => []
  | n :: ns => ⟨position, n⟩ :: spans (position + n + 2) ns

/-- Parts side by side, with two blanks behind each of them. The last part has them as well, so that no
induction over the parts needs to tell it from the others. -/
def spread (parts : List (List Char)) : List Char := parts.flatMap (· ++ [' ', ' '])

theorem spread_cons (part : List Char) (parts : List (List Char)) :
    spread (part :: parts) = part ++ ' ' :: ' ' :: spread parts := by
  rw [spread, List.flatMap_cons, List.append_assoc]
  rfl

theorem intercalate_append {parts : List (List Char)} (h : parts ≠ []) :
    [' ', ' '].intercalate parts ++ [' ', ' '] = spread parts := by
  induction parts with
  | nil => exact absurd rfl h
  | cons part rest ih =>
    cases rest with
    | nil =>
      rw [List.intercalate_singleton, spread_cons]
      rfl
    | cons next rest =>
      rw [List.intercalate_cons_cons, List.append_assoc, ih (List.cons_ne_nil _ _), spread_cons part,
        List.append_assoc]
      rfl

/-- Parts side by side in a line, without blanks at its end. -/
def joined (parts : List (List Char)) : List Char := Text.trimEnd ([' ', ' '].intercalate parts)

/-- A line differs from its spread parts only in blanks at its end. -/
theorem exists_spread (parts : List (List Char)) :
    ∃ blanks, (∀ c ∈ blanks, Text.isBlank c = true) ∧ joined parts ++ blanks = spread parts := by
  by_cases h : parts = []
  · subst h
    exact ⟨[], nofun, rfl⟩
  · refine ⟨([' ', ' '].intercalate parts).rtakeWhile Text.isBlank ++ [' ', ' '], fun c hc => ?_, ?_⟩
    · rcases List.mem_append.mp hc with hc | hc
      · exact List.mem_rtakeWhile_imp hc
      · have hc : c = ' ' := by simpa using hc
        exact hc ▸ rfl
    · rw [← intercalate_append h, ← List.append_assoc]
      exact congrArg (· ++ [' ', ' ']) List.rdropWhile_append_rtakeWhile

/-- Dashes side by side are the runs of their line. -/
theorem runsFrom_spread {ns : List Nat} (h : ∀ n ∈ ns, 0 < n) (position : Nat) {before : Char}
    (hbefore : before ≠ '-') :
    runsFrom position before (spread (ns.map (List.replicate · '-'))) = spans position ns := by
  induction ns generalizing position before with
  | nil => rfl
  | cons n ns ih =>
    obtain ⟨hn, hns⟩ := List.forall_mem_cons.mp h
    obtain ⟨n, rfl⟩ := Nat.exists_eq_add_one.mpr hn
    have hdashes (cs : List Char) :
        ('-' :: (List.replicate n '-' ++ ' ' :: cs)).takeWhile (· = '-') = List.replicate (n + 1) '-' := by
      rw [← List.cons_append, ← List.replicate_succ, List.takeWhile_append_of_pos (by simp)]
      simp
    rw [List.map_cons, spread_cons, List.replicate_succ, List.cons_append, runsFrom,
      if_pos ⟨rfl, hbefore⟩, hdashes, List.length_replicate, runsFrom_replicate, runsFrom,
      if_neg (by simp), runsFrom, if_neg (by simp), ih hns _ (by decide), spans,
      Nat.add_right_comm position 1 n]
    rfl

theorem length_spans (position : Nat) (ns : List Nat) : (spans position ns).length = ns.length := by
  induction ns generalizing position with
  | nil => rfl
  | cons n ns ih => rw [spans, List.length_cons, ih, List.length_cons]

theorem drop_of_cons {cs part : List Char} {parts : List (List Char)} {position : Nat}
    (h : cs.drop position = spread (part :: parts)) :
    cs.drop (position + part.length + 2) = spread parts := by
  rw [Nat.add_assoc, ← List.drop_drop, h, spread_cons, ← List.drop_drop, List.drop_left]
  rfl

/-- Outside of the parts there are only blanks. -/
theorem blank_of_not_covers {cs : List Char} {parts : List (List Char)} {position : Nat}
    (h : cs.drop position = spread parts) {i : Nat} (hi : position ≤ i) {c : Char}
    (hc : cs[i]? = some c) (hout : ∀ run ∈ spans position (parts.map List.length), ¬ run.Covers i) :
    c = ' ' := by
  induction parts generalizing position with
  | nil =>
    have hlength : cs.length ≤ position := List.drop_eq_nil_iff.mp h
    rw [List.getElem?_eq_none (hlength.trans hi)] at hc
    cases hc
  | cons part parts ih =>
    obtain ⟨hpart, hrest⟩ := List.forall_mem_cons.mp hout
    have hbehind : position + part.length ≤ i := Nat.le_of_not_lt fun hlt => hpart ⟨hi, hlt⟩
    by_cases hgap : i < position + part.length + 2
    · obtain ⟨k, rfl⟩ := Nat.exists_eq_add_of_le hbehind
      rw [Nat.add_assoc, ← List.getElem?_drop, h, spread_cons, List.getElem?_append_right (by omega),
        Nat.add_sub_cancel_left] at hc
      obtain rfl | rfl : k = 0 ∨ k = 1 := by omega
      · exact (Option.some.inj hc).symm
      · exact (Option.some.inj hc).symm
    · exact ih (drop_of_cons h) (Nat.le_of_not_lt hgap) hrest

/-- The text fits its slot. -/
def Fits (slot : Slot) (text : String) : Prop := width text ≤ slot.width

theorem length_pad {slot : Slot} {text : String} (h : Fits slot text) :
    (pad slot text.toList).length = slot.width := by
  have hwidth : text.toList.length ≤ slot.width := h
  rw [pad]
  split
  · rw [Text.padStart, List.length_append, List.length_replicate, Nat.sub_add_cancel hwidth]
  · rw [Text.padEnd, List.length_append, List.length_replicate, Nat.add_sub_cancel' hwidth]

def fields (slots : List Slot) (texts : List String) : List Char :=
  joined (slots.zipWith pad (texts.map String.toList))

def rule (slots : List Slot) : List Char :=
  joined (slots.map fun slot => List.replicate slot.width '-')

theorem shown_of_drop {slots : List Slot} {texts : List String} (h : List.Forall₂ Fits slots texts)
    {line : List Char} {position : Nat}
    (hline : line.drop position = spread (slots.zipWith pad (texts.map String.toList))) :
    List.Forall₂ (Run.Shows line) (spans position (slots.map Slot.width))
      ((slots.map Slot.isRight).zip texts) := by
  induction h generalizing position with
  | nil => exact List.Forall₂.nil
  | @cons slot text slots texts hfit hrest ih =>
    rw [List.map_cons, List.zipWith_cons_cons] at hline
    have hbehind := drop_of_cons hline
    rw [length_pad hfit] at hbehind
    refine List.Forall₂.cons ⟨hfit, ?_⟩ (ih hbehind)
    rw [hline, spread_cons]
    exact List.take_left' (length_pad hfit)

theorem map_length_pad {slots : List Slot} {texts : List String} (h : List.Forall₂ Fits slots texts) :
    (slots.zipWith pad (texts.map String.toList)).map List.length = slots.map Slot.width := by
  induction h with
  | nil => rfl
  | cons hfit hrest ih =>
    rw [List.map_cons, List.zipWith_cons_cons, List.map_cons, length_pad hfit, ih, List.map_cons]

theorem inRuns_fields {slots : List Slot} {texts : List String} (h : List.Forall₂ Fits slots texts) :
    InRuns (spans 0 (slots.map Slot.width)) (slots.map Slot.isRight) texts (fields slots texts) := by
  obtain ⟨blanks, hblanks, hline⟩ := exists_spread (slots.zipWith pad (texts.map String.toList))
  have hline : (fields slots texts ++ blanks).drop 0 =
      spread (slots.zipWith pad (texts.map String.toList)) := hline
  refine ⟨blanks, hblanks, shown_of_drop h hline, fun i c hc hout => ?_⟩
  rw [← map_length_pad h] at hout
  exact blank_of_not_covers hline (Nat.zero_le i) hc hout

theorem dashRuns_rule {slots : List Slot} (h : ∀ slot ∈ slots, 0 < slot.width) :
    dashRuns (rule slots) = spans 0 (slots.map Slot.width) := by
  obtain ⟨blanks, hblanks, hline⟩ := exists_spread (slots.map fun slot => List.replicate slot.width '-')
  have hdashes : '-' ∉ blanks := fun hmem => absurd (hblanks _ hmem) (by decide)
  rw [dashRuns, rule, ← runsFrom_append hdashes, hline]
  have hwidths : (slots.map fun slot => List.replicate slot.width '-') =
      (slots.map Slot.width).map (List.replicate · '-') := by
    rw [List.map_map]
    rfl
  rw [hwidths]
  exact runsFrom_spread (List.forall_mem_map.mpr h) 0 (by decide)

theorem exists_of_mem_joined {parts : List (List Char)} (h : '\n' ∈ joined parts) :
    ∃ part ∈ parts, '\n' ∈ part := by
  obtain ⟨blanks, -, hline⟩ := exists_spread parts
  have hmem : '\n' ∈ spread parts := hline ▸ List.mem_append_left blanks h
  obtain ⟨part, hpart, hmem⟩ := List.mem_flatMap.mp hmem
  exact ⟨part, hpart, (List.mem_append.mp hmem).resolve_right (by decide)⟩

theorem mem_pad_iff {slot : Slot} {field : List Char} : '\n' ∈ pad slot field ↔ '\n' ∈ field := by
  rw [pad]
  split
  · simp [Text.padStart]
  · simp [Text.padEnd]

theorem not_mem_fields {slots : List Slot} {texts : List String}
    (h : ∀ text ∈ texts, '\n' ∉ text.toList) : '\n' ∉ fields slots texts := by
  intro hmem
  obtain ⟨part, hpart, hmem⟩ := exists_of_mem_joined hmem
  obtain ⟨i, hi, rfl⟩ := List.getElem_of_mem hpart
  rw [List.getElem_zipWith, mem_pad_iff, List.getElem_map] at hmem
  exact h _ (List.getElem_mem _) hmem

theorem not_mem_rule (slots : List Slot) : '\n' ∉ rule slots := by
  intro hmem
  obtain ⟨part, hpart, hmem⟩ := exists_of_mem_joined hmem
  obtain ⟨slot, -, rfl⟩ := List.mem_map.mp hpart
  cases List.eq_of_mem_replicate hmem

theorem le_foldl_max (ns : List Nat) (n : Nat) : ∀ k ∈ n :: ns, k ≤ ns.foldl max n := by
  induction ns generalizing n with
  | nil => simp
  | cons m ns ih =>
    intro k hk
    have hmax : max n m ≤ ns.foldl max (max n m) := ih (max n m) _ List.mem_cons_self
    rcases List.mem_cons.mp hk with rfl | hk
    · exact (Nat.le_max_left k m).trans hmax
    · rcases List.mem_cons.mp hk with rfl | hk
      · exact (Nat.le_max_right n k).trans hmax
      · exact ih (max n m) k (List.mem_cons_of_mem _ hk)

variable {t : Table} {body : List (List String)}

theorem length_slots (t : Table) (body : List (List String)) : (slots t body).length = t.columnCount := by
  rw [slots, List.length_map, List.length_zipIdx, Table.columnCount]

theorem map_isRight_slots (t : Table) (body : List (List String)) :
    (slots t body).map Slot.isRight = t.columns.map Column.isRight := by
  conv_rhs => rw [← List.zipIdx_map_fst 0 t.columns, List.map_map]
  rw [slots, List.map_map]
  rfl

/-- Texts fit the slots if none of them is wider than its column. -/
theorem fits_slots {texts : List String} (hlength : texts.length = t.columnCount)
    (h : ∀ i c, t.columns[i]? = some c → width (texts.getD i "") ≤ columnWidth c.name body i) :
    List.Forall₂ Fits (slots t body) texts := by
  refine List.forall₂_iff_get.mpr ⟨(length_slots t body).trans hlength.symm, fun i hi htext => ?_⟩
  have hcolumn : i < t.columns.length := htext.trans_eq hlength
  have hwidth := h i _ (List.getElem?_eq_getElem hcolumn)
  rw [List.getD_eq_getElem _ _ htext] at hwidth
  simpa [Fits, slots] using hwidth

theorem fits_names (t : Table) (body : List (List String)) : List.Forall₂ Fits (slots t body) t.names := by
  refine fits_slots (List.length_map ..) fun i c hc => ?_
  have hname : t.names.getD i "" = c.name := by
    rw [List.getD_eq_getElem?_getD, Table.names, List.getElem?_map, hc]
    rfl
  rw [hname]
  exact le_foldl_max _ _ _ List.mem_cons_self

theorem fits_of_mem {row : List String} (hlength : row.length = t.columnCount) (h : row ∈ body) :
    List.Forall₂ Fits (slots t body) row := by
  refine fits_slots hlength fun i _ _ => ?_
  have hwidth : width (row.getD i "") ∈ body.map fun row => width (row.getD i "") :=
    List.mem_map.mpr ⟨row, h, rfl⟩
  exact le_foldl_max _ _ _ (List.mem_cons_of_mem _ hwidth)

/-- Columns with names are not empty. -/
theorem width_pos (h : ∀ name ∈ t.names, name ≠ "") (body : List (List String)) :
    ∀ slot ∈ slots t body, 0 < slot.width := by
  intro slot hslot
  obtain ⟨i, hi, rfl⟩ := List.getElem_of_mem hslot
  obtain ⟨hlength, hfits⟩ := List.forall₂_iff_get.mp (fits_names t body)
  have hi' : i < t.names.length := hlength ▸ hi
  have hpos : 0 < width t.names[i] := by
    rw [width, List.length_pos_iff]
    exact mt String.toList_eq_nil_iff.mp (h _ (List.getElem_mem hi'))
  exact hpos.trans_le (hfits i hi hi')

theorem line_rule (slots : List Slot) :
    line slots (slots.map fun slot => List.replicate slot.width '-') = rule slots ++ ['\n'] := by
  have hparts : slots.zipWith pad (slots.map fun slot => List.replicate slot.width '-') =
      slots.map fun slot => List.replicate slot.width '-' := by
    rw [List.zipWith_map_right, List.zipWith_self]
    refine List.map_congr_left fun slot _ => ?_
    simp [pad, Text.padStart, Text.padEnd]
  rw [line, hparts, rule, joined]

def lines (precision : Option Nat) (t : Table) : List (List Char) :=
  let slots := slots t (t.displayRows precision)
  fields slots t.names :: rule slots :: (t.displayRows precision).map (fields slots)

theorem write_eq {precision : Option Nat} (h : t.columns ≠ []) :
    (write precision t).toList = Text.unlines (lines precision t) := by
  have hline (slots : List Slot) (texts : List String) :
      line slots (texts.map String.toList) = fields slots texts ++ ['\n'] := rfl
  rw [write, if_neg h, String.toList_ofList, line_rule, lines, Text.unlines_cons, Text.unlines_cons,
    Text.unlines, List.flatMap_map, hline]
  simp [hline]

theorem not_mem_lines_iff {precision : Option Nat} :
    (∀ line ∈ lines precision t, '\n' ∉ line) ↔
      ∀ line ∈ fields (slots t (t.displayRows precision)) t.names ::
        (t.displayRows precision).map (fields (slots t (t.displayRows precision))), '\n' ∉ line := by
  simp [lines, not_mem_rule]

/-- A table with columns whose names are not empty is written in a line for its names, a rule and a line for
each row. Names and cells stand at the dashes of their column in the rule. The text is divided into these
lines if there is no line break in any of them, which there is not if the table shows none. -/
theorem write_aligned (precision : Option Nat) {t : Table} (hcolumns : t.columns ≠ [])
    (hnames : ∀ name ∈ t.names, name ≠ "") :
    ∃ header rule body,
      (write precision t).toList = Text.unlines (header :: rule :: body) ∧
      body.length = t.rowCount ∧
      (dashRuns rule).length = t.columnCount ∧
      InRuns (dashRuns rule) (t.columns.map Column.isRight) t.names header ∧
      List.Forall₂ (InRuns (dashRuns rule) (t.columns.map Column.isRight))
        (t.displayRows precision) body ∧
      (((write precision t).toList.splitOn '\n').length = t.rowCount + 3 ↔
        ∀ line ∈ header :: body, '\n' ∉ line) ∧
      ((∀ line ∈ header :: body, '\n' ∉ line) →
        (write precision t).toList.splitOn '\n' = header :: rule :: body ++ [[]]) ∧
      ((∀ texts ∈ t.names :: t.displayRows precision, ∀ text ∈ texts, '\n' ∉ text.toList) →
        ∀ line ∈ header :: body, '\n' ∉ line) := by
  have hlength : ((t.displayRows precision).map (fields (slots t (t.displayRows precision)))).length =
      t.rowCount := (List.length_map ..).trans (t.length_displayRows precision)
  have hruns := dashRuns_rule (width_pos hnames (t.displayRows precision))
  have hsides := map_isRight_slots t (t.displayRows precision)
  refine ⟨_, rule (slots t (t.displayRows precision)), _, write_eq hcolumns, hlength, ?_, ?_, ?_, ?_,
    fun hbreaks => ?_, fun htexts => ?_⟩
  · rw [hruns, length_spans, List.length_map, length_slots]
  · rw [hruns, ← hsides]
    exact inRuns_fields (fits_names t _)
  · rw [hruns, ← hsides]
    refine List.forall₂_map_right_iff.mpr (List.forall₂_same.mpr fun row hrow => ?_)
    exact inRuns_fields (fits_of_mem (Table.length_of_mem_displayRows hrow) hrow)
  · rw [write_eq hcolumns, ← not_mem_lines_iff, ← Text.length_splitOn_unlines_eq_iff, lines,
      List.length_cons, List.length_cons, hlength]
  · rw [write_eq hcolumns]
    exact Text.splitOn_unlines (not_mem_lines_iff.mpr hbreaks)
  · obtain ⟨hheader, hbody⟩ := List.forall_mem_cons.mp htexts
    exact List.forall_mem_cons.mpr ⟨not_mem_fields hheader,
      List.forall_mem_map.mpr fun row hrow => not_mem_fields (hbody row hrow)⟩

/-- Articles and how many of them there are, the last of them uncounted. -/
def shelf : Table :=
  ⟨[⟨"item", .text, [.text "wing nut", .text "-"]⟩,
    ⟨"quantity", .number, [.number 12, .missing]⟩], 2⟩

theorem write_aligned_shelf : shelf.columns ≠ [] ∧ (∀ name ∈ shelf.names, name ≠ "") ∧
    ∃ header rule body,
      (write none shelf).toList.splitOn '\n' = header :: rule :: body ++ [[]] ∧
      (dashRuns rule).length = 2 ∧
      InRuns (dashRuns rule) [false, true] ["item", "quantity"] header ∧
      List.Forall₂ (InRuns (dashRuns rule) [false, true]) [["wing nut", "12"], ["-", ""]] body := by
  have hcolumns : shelf.columns ≠ [] := List.cons_ne_nil _ _
  have hnames : ∀ name ∈ shelf.names, name ≠ "" := by decide
  have hrows : shelf.displayRows none = [["wing nut", "12"], ["-", ""]] := by decide +kernel
  have htexts : ∀ texts ∈ shelf.names :: shelf.displayRows none,
      ∀ text ∈ texts, '\n' ∉ text.toList := by
    rw [hrows]
    decide +kernel
  obtain ⟨header, rule, body, -, -, hruns, hheader, hbody, -, hlines, hbreaks⟩ :=
    write_aligned none hcolumns hnames
  rw [hrows] at hbody
  exact ⟨hcolumns, hnames, header, rule, body, hlines (hbreaks htexts), hruns, hheader, hbody⟩

/-- One row, with a line break in its first cell. -/
def shortage : Table :=
  ⟨[⟨"note", .text, [.text "low\nstock"]⟩, ⟨"count", .number, [.number 3]⟩], 1⟩

theorem write_shortage_divided : shortage.columns ≠ [] ∧ (∀ name ∈ shortage.names, name ≠ "") ∧
    write none shortage = "note       count\n---------  -----\nlow\nstock      3\n" ∧
    ((write none shortage).toList.splitOn '\n').length ≠ shortage.rowCount + 3 := by
  have hwrite : write none shortage = "note       count\n---------  -----\nlow\nstock      3\n" := by
    decide +kernel
  refine ⟨List.cons_ne_nil _ _, by decide, hwrite, ?_⟩
  rw [hwrite]
  decide +kernel

end Tabular.Aligned
