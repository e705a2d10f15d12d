import Tabular.Formula.Lexer
import Tabular.Proofs.Outcome
import Tabular.Proofs.Text.Case

/-!
# Tokens and letter case

A formula with the letters outside its literals in lower case is cut at the same places, and its
tokens are the same but for the case of names. Literals end where their quotes pair up, so that a
formula with an odd number of quotes has no tokens.
-/
namespace Tabular.Formula

open Text

/-- The token with its name, if it is one, in lower case. -/
def Token.lowered : Token → Token
  | name s => name (lower s)
  | t => t

/-- The characters with the letters outside literals in lower case. Quotes open and close literals by
turns, and at the start one is open or not. -/
def lowerOutside (inside : Bool) : List Char → List Char
  | [] => []
  | c :: cs => (if inside then c else c.toLower) :: lowerOutside (inside != (c == '"')) cs

theorem lowerOutside_quote (inside : Bool) (cs : List Char) :
    lowerOutside inside ('"' :: cs) = '"' :: lowerOutside (!inside) cs := by
  cases inside <;> rfl

theorem lowerOutside_cons {c : Char} (hc : c ≠ '"') (inside : Bool) (cs : List Char) :
    lowerOutside inside (c :: cs) = (if inside then c else c.toLower) :: lowerOutside inside cs := by
  have hopen : (c == '"') = false := beq_eq_false_iff_ne.mpr hc
  rw [lowerOutside, hopen, Bool.bne_false]

section
variable {p : Char → Bool} (hp : ∀ c, p c.toLower = p c) (hquote : p '"' = false)
include hp hquote

theorem takeWhile_lowerOutside (cs : List Char) :
    (lowerOutside false cs).takeWhile p = (cs.takeWhile p).map Char.toLower := by
  induction cs with
  | nil => rfl
  | cons c cs ih =>
    by_cases hc : c = '"'
    · subst hc
      rw [lowerOutside_quote, List.takeWhile_cons_of_neg (by simp [hquote]),
        List.takeWhile_cons_of_neg (by simp [hquote]), List.map_nil]
    · simp only [lowerOutside_cons hc, Bool.false_eq_true, if_false, List.takeWhile_cons, hp, ih]
      split <;> rfl

theorem dropWhile_lowerOutside (cs : List Char) :
    (lowerOutside false cs).dropWhile p = lowerOutside false (cs.dropWhile p) := by
  induction cs with
  | nil => rfl
  | cons c cs ih =>
    by_cases hc : c = '"'
    · subst hc
      rw [lowerOutside_quote, List.dropWhile_cons_of_neg (by simp [hquote]),
        List.dropWhile_cons_of_neg (by simp [hquote]), lowerOutside_quote]
    · simp only [lowerOutside_cons hc, Bool.false_eq_true, if_false, List.dropWhile_cons, hp, ih]
      split
      · rfl
      · rw [lowerOutside_cons hc]
        rfl

end

/-- The first character of a text with letters in lower case. -/
theorem lowerOutside_eq_cons (c : Char) (cs : List Char) :
    lowerOutside false (c :: cs) = c.toLower :: lowerOutside (c == '"') cs := by
  simp [lowerOutside]

theorem trimStart_lowerOutside (cs : List Char) :
    trimStart (lowerOutside false cs) = lowerOutside false (trimStart cs) :=
  dropWhile_lowerOutside isBlank_toLower (by decide) cs

theorem readText?_lowerOutside (cs : List Char) :
    readText? (lowerOutside true cs) = (readText? cs).map fun found => (found.1, lowerOutside false found.2) := by
  fun_induction readText? cs with
  | case1 => rfl
  | case2 cs ih =>
    rw [lowerOutside_quote, Bool.not_true, lowerOutside_quote, Bool.not_false, readText?, ih, Option.map_map,
      Option.map_map]
    rfl
  | case3 cs h =>
    have hnext (ds : List Char) (hds : lowerOutside false cs = '"' :: ds) : False := by
      cases cs with
      | nil => cases hds
      | cons d cs =>
        rw [lowerOutside_eq_cons, List.cons.injEq, toLower_eq_iff (by decide)] at hds
        obtain ⟨rfl, -⟩ := hds
        exact h cs rfl rfl
    rw [lowerOutside_quote, Bool.not_true, readText?]
    · simp
    · exact fun ds _ => hnext ds
  | case4 c cs h hc ih =>
    rw [lowerOutside_cons hc, if_pos rfl, readText?, if_neg hc, ih, Option.map_map, Option.map_map]
    · rfl
    · exact fun ds hds _ => hc hds

theorem fractionSpan_lowerOutside (cs : List Char) :
    fractionSpan (lowerOutside false cs) =
      ((fractionSpan cs).1.map Char.toLower, lowerOutside false (fractionSpan cs).2) := by
  cases cs with
  | nil => rfl
  | cons c cs =>
    by_cases hc : c = '.'
    · subst hc
      have hdigit : Char.isDigit '"' = false := by decide
      show fractionSpan ('.' :: lowerOutside false cs) = _
      simp only [fractionSpan, takeWhile_lowerOutside isDigit_toLower hdigit,
        dropWhile_lowerOutside isDigit_toLower hdigit]
      rfl
    · have hc' : c.toLower ≠ '.' := mt (toLower_eq_iff (by decide)).mp hc
      simp [fractionSpan, lowerOutside_eq_cons, hc, hc']

theorem signSpan_lowerOutside (cs : List Char) :
    signSpan (lowerOutside false cs) =
      ((signSpan cs).1.map Char.toLower, lowerOutside false (signSpan cs).2) := by
  cases cs with
  | nil => rfl
  | cons c cs =>
    by_cases hplus : c = '+'
    · subst hplus
      rfl
    by_cases hminus : c = '-'
    · subst hminus
      rfl
    have hplus' : c.toLower ≠ '+' := mt (toLower_eq_iff (by decide)).mp hplus
    have hminus' : c.toLower ≠ '-' := mt (toLower_eq_iff (by decide)).mp hminus
    simp [signSpan, lowerOutside_eq_cons, hplus, hminus, hplus', hminus']

theorem exponentSpan_lowerOutside (cs : List Char) :
    exponentSpan (lowerOutside false cs) =
      ((exponentSpan cs).1.map Char.toLower, lowerOutside false (exponentSpan cs).2) := by
  cases cs with
  | nil => rfl
  | cons c cs =>
    have hdigit : Char.isDigit '"' = false := by decide
    by_cases hc : c = 'e' ∨ c = 'E'
    · have hquote : c ≠ '"' := by
        obtain rfl | rfl := hc <;> decide
      have hc' := (Number.isMark_toLower c).mpr hc
      simp only [lowerOutside_cons hquote, exponentSpan, if_pos hc, Bool.false_eq_true, if_false, if_pos hc',
        signSpan_lowerOutside, takeWhile_lowerOutside isDigit_toLower hdigit,
        dropWhile_lowerOutside isDigit_toLower hdigit, List.map_append, List.map_cons]
    · have hc' := mt (Number.isMark_toLower c).mp hc
      rw [exponentSpan, if_neg hc, List.map_nil, lowerOutside_eq_cons, exponentSpan, if_neg hc']

theorem numberSpan_lowerOutside (cs : List Char) :
    numberSpan (lowerOutside false cs) =
      ((numberSpan cs).1.map Char.toLower, lowerOutside false (numberSpan cs).2) := by
  have hdigit : Char.isDigit '"' = false := by decide
  simp only [numberSpan, takeWhile_lowerOutside isDigit_toLower hdigit,
    dropWhile_lowerOutside isDigit_toLower hdigit, fractionSpan_lowerOutside, exponentSpan_lowerOutside,
    List.map_append]

def symbols : List Char := ['"', '(', ')', ',', ':', '+', '-', '*', '/', '^', '=', '<', '>']

theorem lexeme_of_not_symbol {c : Char} (hc : c ∉ symbols) (cs : List Char) :
    lexeme c cs = wordLexeme c cs := by
  unfold lexeme
  split
  case h_14 => rfl
  all_goals exact absurd (by decide) hc

theorem isNameCharacter_toLower (c : Char) : isNameCharacter c.toLower = isNameCharacter c :=
  apply_toLower (fun d hd => by rw [isNameCharacter, isLetter_of_isAlpha hd]; rfl) c

/-- What is read of a token, with its name and the letters behind it in lower case. -/
abbrev lowerRead (read : Token × List Char) : Token × List Char :=
  (read.1.lowered, lowerOutside false read.2)

theorem wordLexeme_lowerOutside {c : Char} (hc : c ≠ '"') (cs : List Char) :
    (wordLexeme c.toLower (lowerOutside false cs)).toOption = (wordLexeme c cs).toOption.map lowerRead := by
  have hspan : numberSpan (c.toLower :: lowerOutside false cs) =
      ((numberSpan (c :: cs)).1.map Char.toLower, lowerOutside false (numberSpan (c :: cs)).2) := by
    rw [← numberSpan_lowerOutside, lowerOutside_cons hc]
    rfl
  have hpoint : decide (c.toLower = '.') = decide (c = '.') :=
    decide_eq_decide.mpr (toLower_eq_iff (by decide))
  have hunderscore : decide (c.toLower = '_') = decide (c = '_') :=
    decide_eq_decide.mpr (toLower_eq_iff (by decide))
  have hname : isNameCharacter '"' = false := by decide +kernel
  have hletter : isLetter c.toLower = isLetter c := apply_toLower (fun _ => isLetter_of_isAlpha) c
  unfold wordLexeme
  rw [hspan, hpoint, hunderscore, hletter, isDigit_toLower, Number.parse?_toLower,
    takeWhile_lowerOutside isNameCharacter_toLower hname, dropWhile_lowerOutside isNameCharacter_toLower hname]
  split
  · cases Number.parse? (numberSpan (c :: cs)).1 <;> rfl
  split
  · simp [Except.toOption, Token.lowered, lower]
  · rfl

theorem lexeme_quote_lowerOutside (cs : List Char) :
    (lexeme '"' (lowerOutside true cs)).toOption = (lexeme '"' cs).toOption.map lowerRead := by
  rw [lexeme, lexeme, readText?_lowerOutside]
  cases readText? cs <;> rfl

theorem lexeme_less_lowerOutside (cs : List Char) :
    (lexeme '<' (lowerOutside false cs)).toOption = (lexeme '<' cs).toOption.map lowerRead := by
  cases cs with
  | nil => rfl
  | cons d cs =>
    by_cases heq : d = '='
    · subst heq
      rfl
    by_cases hgt : d = '>'
    · subst hgt
      rfl
    have heq' : d.toLower ≠ '=' := mt (toLower_eq_iff (by decide)).mp heq
    have hgt' : d.toLower ≠ '>' := mt (toLower_eq_iff (by decide)).mp hgt
    simp [lexeme, lowerOutside_eq_cons, Except.toOption, Token.lowered, heq, hgt, heq', hgt']

theorem lexeme_greater_lowerOutside (cs : List Char) :
    (lexeme '>' (lowerOutside false cs)).toOption = (lexeme '>' cs).toOption.map lowerRead := by
  cases cs with
  | nil => rfl
  | cons d cs =>
    by_cases heq : d = '='
    · subst heq
      rfl
    have heq' : d.toLower ≠ '=' := mt (toLower_eq_iff (by decide)).mp heq
    simp [lexeme, lowerOutside_eq_cons, Except.toOption, Token.lowered, heq, heq']

theorem toLower_not_mem_symbols {c : Char} (hc : c ∉ symbols) : c.toLower ∉ symbols := by
  intro h
  have hletters : symbols.all (!·.isAlpha) := by decide
  have hletter : ¬c.toLower.isAlpha := by simpa using List.all_eq_true.mp hletters _ h
  have hsame : c = c.toLower := (toLower_eq_iff hletter).mp rfl
  exact hc (hsame.symm ▸ h)

/-- A token is read alike from the text with the letters outside literals in lower case. -/
theorem lexeme_lowerOutside (c : Char) (cs : List Char) :
    (lexeme c.toLower (lowerOutside (c == '"') cs)).toOption = (lexeme c cs).toOption.map lowerRead := by
  by_cases hc : c ∈ symbols
  · simp only [symbols, List.mem_cons, List.not_mem_nil, or_false] at hc
    obtain rfl | rfl | rfl | rfl | rfl | rfl | rfl | rfl | rfl | rfl | rfl | rfl | rfl := hc
    case inl => exact lexeme_quote_lowerOutside cs
    all_goals first
      | rfl
      | exact lexeme_less_lowerOutside cs
      | exact lexeme_greater_lowerOutside cs
  · have hquote : c ≠ '"' := by
      rintro rfl
      exact hc (by decide)
    rw [lexeme_of_not_symbol hc, lexeme_of_not_symbol (toLower_not_mem_symbols hc),
      beq_eq_false_iff_ne.mpr hquote]
    exact wordLexeme_lowerOutside hquote cs

theorem tokensFrom_eq (total : Nat) (cs : List Char) :
    tokensFrom total cs = match trimStart cs with
      | [] => .ok []
      | c :: cs' => match lexeme c cs' with
        | .error cause => .error ⟨cause, total - (cs'.length + 1)⟩
        | .ok (t, rest) => (tokensFrom total rest).map (t :: ·) := by
  rw [tokensFrom]
  split
  next h => rw [h]
  next c cs' h =>
    rw [h]
    dsimp only
    split
    next hl => rw [hl]
    next hl => rw [hl]

/-- The tokens of a text with the letters outside literals in lower case are its tokens with their names
in lower case; neither has any if the other has none. -/
theorem tokensFrom_lowerOutside (total total' : Nat) (cs : List Char) :
    (tokensFrom total' (lowerOutside false cs)).toOption =
      (tokensFrom total cs).toOption.map (List.map Token.lowered) := by
  have hread (c : Char) (cs : List Char) {x : Except LexicalCause (Token × List Char)}
      (h : lexeme c cs = x) :
      (lexeme c.toLower (lowerOutside (c == '"') cs)).toOption = x.toOption.map lowerRead :=
    h ▸ lexeme_lowerOutside c cs
  fun_induction tokensFrom total cs with
  | case1 cs h =>
    rw [tokensFrom_eq, trimStart_lowerOutside, h]
    rfl
  | case2 cs c cs' h cause hlexeme =>
    rw [tokensFrom_eq, trimStart_lowerOutside, h, lowerOutside_eq_cons]
    dsimp only
    cases hlower : lexeme c.toLower (lowerOutside (c == '"') cs') with
    | error => rfl
    | ok read =>
      have hsame := hread c cs' hlexeme
      rw [hlower] at hsame
      cases hsame
  | case3 cs c cs' h t rest hlexeme ih =>
    have hsame := hread c cs' hlexeme
    rw [tokensFrom_eq, trimStart_lowerOutside, h, lowerOutside_eq_cons]
    dsimp only
    cases hlower : lexeme c.toLower (lowerOutside (c == '"') cs') with
    | error =>
      rw [hlower] at hsame
      cases hsame
    | ok read =>
      rw [hlower] at hsame
      obtain rfl : read = lowerRead (t, rest) := Option.some.inj hsame
      dsimp only
      rw [toOption_map, toOption_map, ih, Option.map_map, Option.map_map]
      rfl

theorem count_quote_dropWhile {p : Char → Bool} (hquote : p '"' = false) (cs : List Char) :
    (cs.dropWhile p).count '"' = cs.count '"' := by
  induction cs with
  | nil => rfl
  | cons c cs ih =>
    rw [List.dropWhile_cons]
    split
    next hc =>
      have hne : c ≠ '"' := by
        rintro rfl
        rw [hquote] at hc
        cases hc
      rw [ih, List.count_cons_of_ne hne]
    next => rfl

theorem count_quote_readText? {cs s rest : List Char} (h : readText? cs = some (s, rest)) :
    cs.count '"' % 2 = (rest.count '"' + 1) % 2 := by
  fun_induction readText? cs generalizing s with
  | case1 => cases h
  | case2 cs ih =>
    obtain ⟨⟨s', rest'⟩, h', he⟩ := Option.map_eq_some_iff.mp h
    cases he
    have hcount := ih h'
    simp only [List.count_cons_self]
    omega
  | case3 cs _ =>
    cases h
    rw [List.count_cons_self]
  | case4 c cs _ hc ih =>
    obtain ⟨⟨s', rest'⟩, h', he⟩ := Option.map_eq_some_iff.mp h
    cases he
    rw [List.count_cons_of_ne hc, ih h']

theorem count_quote_fractionSpan (cs : List Char) : (fractionSpan cs).2.count '"' = cs.count '"' := by
  unfold fractionSpan
  split
  · rw [count_quote_dropWhile (by decide), List.count_cons_of_ne (by decide)]
  · rfl

theorem count_quote_exponentSpan (cs : List Char) : (exponentSpan cs).2.count '"' = cs.count '"' := by
  have hsign (cs : List Char) : (signSpan cs).2.count '"' = cs.count '"' := by
    unfold signSpan
    split
    · rw [List.count_cons_of_ne (by decide)]
    · rw [List.count_cons_of_ne (by decide)]
    · rfl
  unfold exponentSpan
  split
  · rfl
  split
  next hc =>
    have hne {c : Char} (hc : c = 'e' ∨ c = 'E') : c ≠ '"' := by
      obtain rfl | rfl := hc <;> decide
    rw [count_quote_dropWhile (by decide), hsign, List.count_cons_of_ne (hne hc)]
  · rfl

theorem count_quote_numberSpan (cs : List Char) : (numberSpan cs).2.count '"' = cs.count '"' := by
  rw [numberSpan, count_quote_exponentSpan, count_quote_fractionSpan, count_quote_dropWhile (by decide)]

theorem count_quote_wordLexeme {c : Char} {cs rest : List Char} {t : Token}
    (h : wordLexeme c cs = .ok (t, rest)) : (c :: cs).count '"' = rest.count '"' := by
  unfold wordLexeme at h
  split at h
  · split at h
    next =>
      cases h
      exact (count_quote_numberSpan _).symm
    next => cases h
  split at h
  next hc =>
    cases h
    have hne : c ≠ '"' := by
      rintro rfl
      exact absurd hc (by decide +kernel)
    rw [count_quote_dropWhile (by decide +kernel), List.count_cons_of_ne hne]
  next => cases h

/-- A token takes an even number of quotes. -/
theorem count_quote_lexeme {c : Char} {cs rest : List Char} {t : Token} (h : lexeme c cs = .ok (t, rest)) :
    (c :: cs).count '"' % 2 = rest.count '"' % 2 := by
  unfold lexeme at h
  split at h
  case h_1 =>
    split at h
    next hread =>
      cases h
      have hcount := count_quote_readText? hread
      rw [List.count_cons_self]
      omega
    next => cases h
  case h_12 => split at h <;> cases h <;> rfl
  case h_13 => split at h <;> cases h <;> rfl
  case h_14 => rw [count_quote_wordLexeme h]
  all_goals
    cases h
    rfl

theorem even_quotes_of_tokensFrom {total : Nat} {cs : List Char} {ts : List Token}
    (h : tokensFrom total cs = .ok ts) : cs.count '"' % 2 = 0 := by
  have hstart (cs : List Char) : (trimStart cs).count '"' = cs.count '"' :=
    count_quote_dropWhile (by decide) cs
  fun_induction tokensFrom total cs generalizing ts with
  | case1 cs hcs =>
    rw [← hstart, hcs]
    rfl
  | case2 => cases h
  | case3 cs c cs' hcs t rest hlexeme ih =>
    cases hrest : tokensFrom total rest with
    | error =>
      rw [hrest] at h
      cases h
    | ok us => rw [← hstart, hcs, count_quote_lexeme hlexeme, ih hrest]

/-- A formula with the letters outside its literals in lower case. An odd number of quotes makes no
literals, as the last one would not end. -/
def caseless (formula : String) : List Char :=
  if formula.toList.count '"' % 2 = 0 then lowerOutside false formula.toList
  else formula.toList.map Char.toLower

theorem count_quote_lowerOutside (inside : Bool) (cs : List Char) :
    (lowerOutside inside cs).count '"' = cs.count '"' := by
  induction cs generalizing inside with
  | nil => rfl
  | cons c cs ih =>
    by_cases hc : c = '"'
    · subst hc
      rw [lowerOutside_quote, List.count_cons_self, List.count_cons_self, ih]
    · have hc' : (if inside then c else c.toLower) ≠ '"' := by
        split
        · exact hc
        · exact mt (toLower_eq_iff (by decide)).mp hc
      rw [lowerOutside_cons hc, List.count_cons_of_ne hc', List.count_cons_of_ne hc, ih]

theorem count_quote_toLower (cs : List Char) : (cs.map Char.toLower).count '"' = cs.count '"' := by
  have hquote (c : Char) : (c.toLower == '"') = (c == '"') := by
    rw [Bool.eq_iff_iff, beq_iff_eq, beq_iff_eq, toLower_eq_iff (by decide)]
  rw [List.count_eq_countP, List.countP_map, List.count_eq_countP]
  exact congrArg (List.countP · cs) (funext hquote)

theorem count_quote_caseless (formula : String) :
    (caseless formula).count '"' = formula.toList.count '"' := by
  unfold caseless
  split
  · exact count_quote_lowerOutside false _
  · exact count_quote_toLower _

theorem count_quote_body (formula : String) : (body formula).count '"' = formula.toList.count '"' := by
  have hstart : (trimStart formula.toList).count '"' = formula.toList.count '"' :=
    count_quote_dropWhile (by decide) _
  rw [← hstart]
  unfold body
  split
  next h => rw [h, List.count_cons_of_ne (by decide)]
  next => rfl

/-- The characters of a formula with the letters outside literals in lower case, after what leads it. -/
theorem lowerOutside_body (formula : String) :
    lowerOutside false (body formula) = body (String.ofList (lowerOutside false formula.toList)) := by
  unfold body
  rw [String.toList_ofList, trimStart_lowerOutside]
  cases trimStart formula.toList with
  | nil => rfl
  | cons c cs =>
    by_cases hc : c = '='
    · subst hc
      rfl
    · have hc' : c.toLower ≠ '=' := mt (toLower_eq_iff (by decide)).mp hc
      simp [lowerOutside_eq_cons, hc, hc']

/-- Formulas that differ only in the case of letters outside literals have the same tokens but for the
case of names, or have none. -/
theorem tokenize_congr {formula other : String} (h : caseless formula = caseless other) :
    (tokenize formula).toOption.map (List.map Token.lowered) =
      (tokenize other).toOption.map (List.map Token.lowered) := by
  have hcount : formula.toList.count '"' = other.toList.count '"' := by
    rw [← count_quote_caseless, h, count_quote_caseless]
  by_cases heven : formula.toList.count '"' % 2 = 0
  · have hsame : lowerOutside false (body formula) = lowerOutside false (body other) := by
      rw [caseless, if_pos heven, caseless, if_pos (hcount ▸ heven)] at h
      rw [lowerOutside_body, lowerOutside_body, h]
    rw [tokenize, tokenize, ← tokensFrom_lowerOutside _ 0, ← tokensFrom_lowerOutside _ 0, hsame]
  · have hnone {s : String} (hs : ¬s.toList.count '"' % 2 = 0) : (tokenize s).toOption = none := by
      cases htokens : tokenize s with
      | error => rfl
      | ok ts =>
        refine absurd (even_quotes_of_tokensFrom htokens) ?_
        rwa [count_quote_body]
    rw [hnone heven, hnone (hcount ▸ heven)]

end Tabular.Formula
