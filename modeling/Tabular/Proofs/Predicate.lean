import Tabular.Filter
import Tabular.Proofs.Address

/-!
# Reading written predicates

A predicate that is written as a column, a comparison and a literal with blanks between them is read as
these three, whatever comparisons and quotes the literal holds: the column ends before the first
comparison, and everything behind that one is the literal.
-/
namespace Tabular

namespace Text

/-- Only a text that neither starts nor ends with a blank is trimmed already. -/
theorem ends_of_trimmed_eq_self {cs : List Char} (h : trimmed cs = cs) :
    (∀ c ∈ cs.head?, isBlank c = false) ∧ ∀ c ∈ cs.getLast?, isBlank c = false := by
  have hkept {l : List Char} (hl : l.dropWhile isBlank = l) : ∀ c ∈ l.head?, isBlank c = false := by
    intro c hc
    cases l with
    | nil => cases hc
    | cons d l =>
      cases hc
      by_contra hblank
      rw [List.dropWhile_cons_of_pos (by simpa using hblank)] at hl
      have hle := (List.dropWhile_sublist (l := l) isBlank).length_le
      rw [hl, List.length_cons] at hle
      omega
  have hstart : trimStart cs = cs := by
    have hle := (List.dropWhile_sublist (l := (trimStart cs).reverse) isBlank).length_le
    have hlength := congrArg List.length h
    rw [List.length_reverse] at hle
    rw [trimmed, trimEnd, List.length_reverse] at hlength
    exact (List.dropWhile_sublist isBlank).eq_of_length_le (hlength ▸ hle)
  refine ⟨hkept hstart, ?_⟩
  rw [trimmed, hstart, trimEnd, List.reverse_eq_iff] at h
  rw [← List.head?_reverse]
  exact hkept h

theorem trim_eq_self_iff {s : String} : trim s = s ↔ trimmed s.toList = s.toList := by
  rw [trim, ← String.toList_inj, String.toList_ofList]

theorem trimmed_cons_blank {c : Char} (h : isBlank c = true) (cs : List Char) :
    trimmed (c :: cs) = trimmed cs := by
  rw [trimmed, trimStart, List.dropWhile_cons_of_pos h]
  rfl

end Text

def Comparison.spellings : List (String × Comparison) :=
  [("=", .eq), ("==", .eq), ("<>", .ne), ("!=", .ne), ("<", .lt), ("<=", .le), (">", .gt), (">=", .ge)]

def Comparison.signs : List Char := ['<', '>', '=', '!']

namespace Predicate

variable {symbol : String} {op : Comparison}

theorem splitComparison?_spelling (h : (symbol, op) ∈ Comparison.spellings) (rest : List Char) :
    splitComparison? (symbol.toList ++ ' ' :: rest) = some (op, ' ' :: rest) := by
  simp only [Comparison.spellings, List.mem_cons, Prod.mk.injEq, List.not_mem_nil, or_false] at h
  rcases h with h | h | h | h | h | h | h | h
  all_goals
    rw [h.1, h.2]
    rfl

theorem splitComparison?_of_not_mem {c : Char} (h : c ∉ Comparison.signs) (rest : List Char) :
    splitComparison? (c :: rest) = none := by
  unfold splitComparison?
  split
  case h_9 => rfl
  all_goals
    rename_i heq
    cases heq
    exact absurd (by decide) h

/-- The first character of a comparison is no blank. -/
theorem trimStart_spelling (h : (symbol, op) ∈ Comparison.spellings) (rest : List Char) :
    Text.trimStart (' ' :: (symbol.toList ++ rest)) = symbol.toList ++ rest := by
  simp only [Comparison.spellings, List.mem_cons, Prod.mk.injEq, List.not_mem_nil, or_false] at h
  rcases h with h | h | h | h | h | h | h | h
  all_goals
    rw [h.1]
    rfl

theorem readCondition?_spelling (h : (symbol, op) ∈ Comparison.spellings) {literal : List Char}
    (hline : '\n' ∉ literal) (htrim : Text.trimmed literal = literal) :
    readCondition? (' ' :: (symbol.toList ++ ' ' :: literal)) = some (op, literal) := by
  rw [readCondition?, trimStart_spelling h, splitComparison?_spelling h]
  simp only [Option.bind_eq_bind, Option.bind_some]
  rw [Text.trimmed_cons_blank (by decide), htrim, if_neg hline]

/-- The text can name a column of a predicate: it is not empty, of one line, has no blanks around it
and none of the characters of comparisons in it. -/
structure IsColumn (name : String) : Prop where
  ne_empty : name ≠ ""
  trimmed : Text.trim name = name
  line : '\n' ∉ name.toList
  unsigned : ∀ c ∈ name.toList, c ∉ Comparison.signs

/-- No condition begins before a character that is neither a blank nor part of a comparison. -/
theorem readCondition?_of_not_mem {cs : List Char} (hsigns : ∀ c ∈ cs, c ∉ Comparison.signs)
    (hblank : ∃ c ∈ cs, Text.isBlank c = false) (rest : List Char) :
    readCondition? (cs ++ rest) = none := by
  have hnone : splitComparison? (Text.trimStart (cs ++ rest)) = none := by
    induction cs with
    | nil =>
      obtain ⟨c, hc, -⟩ := hblank
      cases hc
    | cons c cs ih =>
      obtain ⟨hc, hcs⟩ := List.forall_mem_cons.mp hsigns
      by_cases hfirst : Text.isBlank c
      · obtain ⟨d, hd, hdblank⟩ := hblank
        rcases List.mem_cons.mp hd with hd | hd
        · rw [hd, hfirst] at hdblank
          cases hdblank
        · rw [List.cons_append, Text.trimStart, List.dropWhile_cons_of_pos hfirst]
          exact ih hcs ⟨d, hd, hdblank⟩
      · rw [List.cons_append, Text.trimStart, List.dropWhile_cons_of_neg hfirst]
        exact splitComparison?_of_not_mem hc _
  rw [readCondition?, hnone]
  rfl

/-- The column ends where the first condition begins. -/
theorem readFrom?_append {name rest : List Char} {condition : Comparison × List Char}
    (hne : name ≠ []) (hline : '\n' ∉ name) (hsigns : ∀ c ∈ name, c ∉ Comparison.signs)
    (hlast : ∀ c ∈ name.getLast?, Text.isBlank c = false)
    (hrest : readCondition? rest = some condition) :
    readFrom? (name ++ rest) = some (name, condition) := by
  induction name with
  | nil => exact absurd rfl hne
  | cons c name ih =>
    have hc : ¬c = '\n' := fun heq => hline (heq ▸ List.mem_cons_self)
    rw [List.cons_append, readFrom?, if_neg hc]
    cases name with
    | nil =>
      rw [List.nil_append, hrest]
    | cons d name =>
      have hmore := ih (List.cons_ne_nil d name) (fun hmem => hline (List.mem_cons_of_mem _ hmem))
        (fun e he => hsigns e (List.mem_cons_of_mem _ he)) (by rwa [List.getLast?_cons_cons] at hlast)
      -- the last character of the name is no blank, so that no condition can begin within it
      have hnone : readCondition? (d :: name ++ rest) = none := by
        refine readCondition?_of_not_mem (fun e he => hsigns e (List.mem_cons_of_mem _ he)) ?_ rest
        refine ⟨(d :: name).getLast (List.cons_ne_nil d name), List.getLast_mem _, hlast _ ?_⟩
        rw [List.getLast?_cons_cons, List.getLast?_eq_some_getLast]
        rfl
      rw [hnone, hmore]
      rfl

theorem readParts?_append {name rest : List Char} {condition : Comparison × List Char}
    (hfirst : ∀ c ∈ name.head?, Text.isBlank c = false)
    (hread : readFrom? (name ++ rest) = some (name, condition)) (hne : name ≠ []) :
    readParts? (name ++ rest) = some (name, condition) := by
  obtain ⟨c, name, rfl⟩ := List.exists_cons_of_ne_nil hne
  have hblank : ¬Text.isBlank c = true := by
    rw [hfirst c rfl]
    decide
  rw [readParts?, List.cons_append, List.takeWhile_cons_of_neg hblank]
  simpa using hread

theorem between?_eq_some_iff {quote : Char} {cs inner : List Char} :
    between? quote cs = some inner ↔ cs = quote :: inner ++ [quote] := by
  rw [between?]
  constructor
  · intro h
    split at h
    next hquotes =>
      obtain ⟨hlength, hhead, hlast⟩ := hquotes
      cases cs with
      | nil => cases hhead
      | cons c cs =>
        cases hhead
        cases h
        rcases List.eq_nil_or_concat cs with hnil | ⟨front, last, hconcat⟩
        · rw [hnil, List.length_singleton] at hlength
          omega
        · rw [List.concat_eq_append] at hconcat
          subst hconcat
          rw [← List.cons_append, List.getLast?_append] at hlast
          cases hlast
          simp
    next => cases h
  · intro h
    rw [h, if_pos]
    · simp
    · refine ⟨by simp, rfl, ?_⟩
      rw [List.getLast?_append]
      rfl

def quotes : List Char := ['"', '\'']

theorem unquote?_quoted {quote : Char} (h : quote ∈ quotes) (inner : List Char) :
    unquote? (quote :: inner ++ [quote]) = some inner := by
  have hown : between? quote (quote :: inner ++ [quote]) = some inner := between?_eq_some_iff.mpr rfl
  rcases List.mem_cons.mp h with h | h
  · rw [unquote?, ← h, hown]
    rfl
  · rw [List.mem_singleton] at h
    have hother : between? '"' (quote :: inner ++ [quote]) = none := by
      rw [h, between?, if_neg]
      intro hquotes
      cases hquotes.2.1
    rw [unquote?, hother, ← h, hown]
    rfl

theorem unquote?_eq_none {cs : List Char} (h : ∀ quote ∈ quotes, ∀ inner, cs ≠ quote :: inner ++ [quote]) :
    unquote? cs = none := by
  have hnone (quote : Char) (hquote : quote ∈ quotes) : between? quote cs = none := by
    rw [Option.eq_none_iff_forall_ne_some]
    intro inner hinner
    exact h quote hquote inner (between?_eq_some_iff.mp hinner)
  rw [unquote?, hnone '"' (by decide), hnone '\'' (by decide)]
  rfl

/-- The text of a column, a comparison and a literal with blanks between them. -/
def written (name symbol literal : String) : String := name ++ " " ++ symbol ++ " " ++ literal

variable {name literal : String}

theorem parse_written_eq (hname : IsColumn name) (hsymbol : (symbol, op) ∈ Comparison.spellings)
    {cs : List Char} (hliteral : literal.toList = cs) (hline : '\n' ∉ cs)
    (htrim : Text.trimmed cs = cs) : parse (written name symbol literal) =
      .ok ⟨name, op, String.ofList ((unquote? cs).getD cs), (unquote? cs).isSome⟩ := by
  have hne : name.toList ≠ [] := mt String.toList_eq_nil_iff.mp hname.ne_empty
  obtain ⟨hfirst, hlast⟩ := Text.ends_of_trimmed_eq_self (Text.trim_eq_self_iff.mp hname.trimmed)
  have htext : (written name symbol literal).toList =
      name.toList ++ ' ' :: (symbol.toList ++ ' ' :: cs) := by
    simp [written, hliteral]
  have hparts := readParts?_append hfirst (readFrom?_append hne hname.line hname.unsigned hlast
    (readCondition?_spelling hsymbol hline htrim)) hne
  rw [parse, htext, hparts]
  dsimp only
  rw [String.ofList_toList]

/-- A written predicate is read as the column, the comparison and the literal that it was written from.
A literal in quotes is read as the text between them, and one that neither has quotes nor blanks around
it as it stands. -/
theorem parse_written (hname : IsColumn name) (hsymbol : (symbol, op) ∈ Comparison.spellings)
    (hline : '\n' ∉ literal.toList) :
    (∀ quote ∈ quotes, parse (written name symbol (quote.toString ++ literal ++ quote.toString)) =
      .ok ⟨name, op, literal, true⟩) ∧
    (Text.trim literal = literal →
      (∀ quote ∈ quotes, ∀ inner, literal ≠ quote.toString ++ inner ++ quote.toString) →
      parse (written name symbol literal) = .ok ⟨name, op, literal, false⟩) := by
  constructor
  · intro quote hquote
    have hblanks : ∀ c ∈ quotes, Text.isBlank c = false :=
      List.forall_mem_cons.mpr ⟨rfl, List.forall_mem_singleton.mpr rfl⟩
    have hblank := hblanks quote hquote
    have hbreak : '\n' ≠ quote := by
      rintro rfl
      revert hquote
      decide
    have htext : (quote.toString ++ literal ++ quote.toString).toList =
        quote :: literal.toList ++ [quote] := by
      simp
    have htrim : Text.trimmed (quote :: literal.toList ++ [quote]) =
        quote :: literal.toList ++ [quote] := by
      apply Text.trimmed_eq_self
      · intro c hc
        cases hc
        exact hblank
      · intro c hc
        rw [List.getLast?_append] at hc
        cases hc
        exact hblank
    have hline' : '\n' ∉ quote :: literal.toList ++ [quote] := by
      simp [hline, hbreak]
    rw [parse_written_eq hname hsymbol htext hline' htrim, unquote?_quoted hquote, Option.getD_some,
      String.ofList_toList]
    rfl
  · intro htrim hquotes
    have hnone : unquote? literal.toList = none := by
      apply unquote?_eq_none
      intro quote hquote inner hinner
      apply hquotes quote hquote (String.ofList inner)
      apply String.toList_injective
      simpa using hinner
    rw [parse_written_eq hname hsymbol rfl hline (Text.trim_eq_self_iff.mp htrim), hnone,
      Option.getD_none, String.ofList_toList]
    rfl

/-- A literal that is full of comparisons and quotes, in quotes of the other kind and without. -/
theorem parse_written_disc :
    (IsColumn "disc size" ∧ ("<>", Comparison.ne) ∈ Comparison.spellings ∧
      '\n' ∉ "<= 5\" = '".toList ∧ Text.trim "<= 5\" = '" = "<= 5\" = '") ∧
    parse "disc size <> '<= 5\" = ''" = .ok ⟨"disc size", .ne, "<= 5\" = '", true⟩ ∧
    parse "disc size <> <= 5\" = '" = .ok ⟨"disc size", .ne, "<= 5\" = '", false⟩ := by
  have hunsigned : ("disc size".toList.all fun c => decide (c ∉ Comparison.signs)) = true := by
    decide +kernel
  have hname : IsColumn "disc size" := by
    refine ⟨by decide, by decide +kernel, by decide +kernel, ?_⟩
    intro c hc
    exact of_decide_eq_true (List.all_eq_true.mp hunsigned c hc)
  have hsymbol : ("<>", Comparison.ne) ∈ Comparison.spellings := by decide
  have hline : '\n' ∉ "<= 5\" = '".toList := by decide +kernel
  have htrim : Text.trim "<= 5\" = '" = "<= 5\" = '" := by decide +kernel
  obtain ⟨hquoted, hplain⟩ := parse_written hname hsymbol hline
  refine ⟨⟨hname, hsymbol, hline, htrim⟩, hquoted '\'' (by decide), hplain htrim ?_⟩
  intro quote hquote inner h
  -- the literal begins with no quote
  have hhead : some '<' = some quote := by simpa using congrArg (fun s : String => s.toList.head?) h
  cases hhead
  exact absurd hquote (by decide)

end Predicate

end Tabular
