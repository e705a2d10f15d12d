import Mathlib.Data.Bool.Basic
import Tabular.Proofs.Formula.Lexer
import Tabular.Proofs.Number.Numeral

/-!
# Reading written tokens

Tokens written one behind another are read as they were before they were written. Blanks may stand
between neighbours, and have to where the second one would be read as a part of the first.
-/
namespace Tabular.Formula

open Text Number

/-- The characters are a way of writing the token. A number can be written in many ways, a text and a
name in one. -/
inductive Token.Spelled : Token → List Char → Prop
  | number (n : Numeral) : Spelled (.number n.toFloat) n.text
  | text (s : List Char) :
      Spelled (.text (String.ofList s))
        ('"' :: (s.flatMap (fun c => if c = '"' then ['"', '"'] else [c]) ++ ['"']))
  | name {c : Char} {cs : List Char} : isLetter c = true ∨ c = '_' →
      (∀ d ∈ cs, isNameCharacter d = true) → Spelled (.name (String.ofList (c :: cs))) (c :: cs)
  | operator (op : BinaryOp) : Spelled (.operator op) op.symbol.toList
  | openParen : Spelled .openParen ['(']
  | closeParen : Spelled .closeParen [')']
  | comma : Spelled .comma [',']
  | colon : Spelled .colon [':']

def Token.isWord : Token → Bool
  | number _ => true
  | name _ => true
  | _ => false

def Token.beginsOperator (c : Char) : Token → Bool
  | operator op => op.symbol.toList.head? = some c
  | _ => false

/-- Whether a token must be kept apart from the one behind it. -/
def Token.clings : Token → Token → Bool
  | number _, t => t.isWord
  | name _, t => t.isWord
  | text _, text _ => true
  | operator (.compare .lt), t => t.beginsOperator '=' || t.beginsOperator '>'
  | operator (.compare .gt), t => t.beginsOperator '='
  | _, _ => false

/-- The characters are the tokens in a row, with blanks behind any of them, and behind those that must
be kept apart from their neighbours. -/
inductive Written : List Token → List Char → Prop
  | nil : Written [] []
  | cons {t : Token} {ts : List Token} {cs blanks rest : List Char} : t.Spelled cs →
      (∀ c ∈ blanks, isBlank c = true) → (∀ u ∈ ts.head?, t.clings u = true → blanks ≠ []) →
      Written ts rest → Written (t :: ts) (cs ++ (blanks ++ rest))

theorem isNameCharacter_of_isDigit {c : Char} (h : c.isDigit = true) : isNameCharacter c = true := by
  have hnumeral : isNumeral c = true := inRanges_iff.mpr ⟨(48, 57), .head _, isDigit_iff.mp h⟩
  simp [isNameCharacter, hnumeral]

theorem isNameCharacter_of_isAlpha {c : Char} (h : c.isAlpha = true) : isNameCharacter c = true := by
  simp [isNameCharacter, isLetter_of_isAlpha h]

/-- A code in some ranges is in none of the others if no two of them meet. The bounds are compared by
`Nat.blt`, since the tables of letters and numerals are long. -/
theorem inRanges_of_apart {ranges others : List (Nat × Nat)}
    (hapart : ranges.all (fun r => others.all fun s => r.2.blt s.1 || s.2.blt r.1) = true) {n : Nat}
    (h : inRanges ranges n = true) : inRanges others n = false := by
  refine Bool.eq_false_iff.mpr fun hothers => ?_
  obtain ⟨r, hr, hlow, hhigh⟩ := inRanges_iff.mp h
  obtain ⟨s, hs, hlow', hhigh'⟩ := inRanges_iff.mp hothers
  have hmeet := List.all_eq_true.mp (List.all_eq_true.mp hapart r hr) s hs
  simp only [Bool.or_eq_true, Nat.blt_eq] at hmeet
  omega

/-- What a number begins with is no letter. -/
theorem not_isLetter_of_number {c : Char} (h : c.isDigit = true ∨ c = '.') : isLetter c = false := by
  have hcode : inRanges [(46, 46), (48, 57)] c.toNat = true := by
    obtain hdigit | rfl := h
    · exact inRanges_iff.mpr ⟨(48, 57), by simp, isDigit_iff.mp hdigit⟩
    · rfl
  exact inRanges_of_apart (by decide +kernel) hcode

def nameRanges : List (Nat × Nat) := letterRanges ++ (numeralRanges ++ [(95, 95), (46, 46)])

theorem isNameCharacter_eq (c : Char) : isNameCharacter c = inRanges nameRanges c.toNat := by
  have hcode (d : Char) : decide (c = d) = inRanges [(d.toNat, d.toNat)] c.toNat := by
    rw [Bool.eq_iff_iff, decide_eq_true_iff, inRanges_iff, ← Char.toNat_inj]
    simp [Nat.le_antisymm_iff, and_comm]
  have hmarks : inRanges [(95, 95), (46, 46)] c.toNat = (decide (c = '_') || decide (c = '.')) := by
    rw [hcode, hcode]
    exact inRanges_append [(95, 95)] [(46, 46)] c.toNat
  rw [nameRanges, inRanges_append, inRanges_append, hmarks, ← Bool.or_assoc, ← Bool.or_assoc]
  rfl

/-- The codes of the characters that tokens other than words begin with. -/
def symbolRanges : List (Nat × Nat) :=
  [(34, 34), (40, 45), (47, 47), (58, 58), (60, 62), (94, 94)]

theorem isNameCharacter_of_inRanges {c : Char} (h : inRanges (blankRanges ++ symbolRanges) c.toNat = true) :
    isNameCharacter c = false := by
  rw [isNameCharacter_eq]
  exact inRanges_of_apart (by decide +kernel) h

/-- No blank is part of a name. -/
theorem isNameCharacter_of_isBlank {c : Char} (h : isBlank c = true) : isNameCharacter c = false := by
  refine isNameCharacter_of_inRanges ?_
  rw [inRanges_append]
  exact Bool.or_inl h

/-- A character that a token of its own begins with is part of no name. -/
theorem isNameCharacter_of_mem_symbols {c : Char} (hc : c ∈ symbols) : isNameCharacter c = false := by
  have hcodes : symbols.all (fun d => inRanges symbolRanges d.toNat) = true := rfl
  refine isNameCharacter_of_inRanges ?_
  rw [inRanges_append]
  exact Bool.or_inr (List.all_eq_true.mp hcodes c hc)

/-- Neither a number nor a name goes on with the text. -/
def EndsWord (rest : List Char) : Prop := ∀ c ∈ rest.head?, isNameCharacter c = false

variable {rest : List Char}

theorem EndsWord.isDigit (h : EndsWord rest) {c : Char} (hc : c ∈ rest.head?) : c.isDigit = false := by
  refine Bool.eq_false_iff.mpr fun hdigit => ?_
  have hname := h c hc
  rw [isNameCharacter_of_isDigit hdigit] at hname
  cases hname

theorem EndsWord.head?_ne (h : EndsWord rest) {c : Char} (hc : isNameCharacter c = true) :
    rest.head? ≠ some c := by
  intro hhead
  rw [h c hhead] at hc
  cases hc

theorem exponentSpan_exponentText (n : Numeral) (hrest : EndsWord rest) :
    exponentSpan (n.exponentText ++ rest) = (n.exponentText, rest) := by
  unfold Numeral.exponentText
  cases n.exponent? with
  | none =>
    cases rest with
    | nil => rfl
    | cons c rest =>
      have hmark : ¬(c = 'e' ∨ c = 'E') := by
        rintro (rfl | rfl)
        · exact hrest.head?_ne (isNameCharacter_of_isAlpha rfl) rfl
        · exact hrest.head?_ne (isNameCharacter_of_isAlpha rfl) rfl
      exact if_neg hmark
  | some e =>
    have hspan := span_append e.isDigit fun c hc => hrest.isDigit hc
    have hsign : signSpan (e.sign?.toList ++ (e.digits ++ rest)) = (e.sign?.toList, e.digits ++ rest) := by
      cases hsign : e.sign? with
      | none =>
        cases hcs : e.digits with
        | nil => exact absurd hcs e.digits_ne_nil
        | cons c cs =>
          obtain ⟨hplus, hminus⟩ := e.ne_sign_of_mem_digits (hcs ▸ List.mem_cons_self)
          simp [signSpan, hplus, hminus]
      | some c => obtain rfl | rfl := e.isSign c hsign <;> rfl
    show exponentSpan (e.mark :: (e.sign?.toList ++ e.digits ++ rest)) = _
    rw [List.append_assoc, exponentSpan, if_pos e.isMark]
    dsimp only
    rw [hsign, hspan.1, hspan.2]
    rfl

theorem fractionSpan_fractionText (n : Numeral) (hrest : EndsWord rest) :
    fractionSpan (n.fractionText ++ (n.exponentText ++ rest)) =
      (n.fractionText, n.exponentText ++ rest) := by
  have hhead {c : Char} (hc : c ∈ (n.exponentText ++ rest).head?) : c.isDigit = false ∧ c ≠ '.' := by
    cases hexponent : n.exponentText with
    | nil =>
      rw [hexponent] at hc
      refine ⟨hrest.isDigit hc, ?_⟩
      rintro rfl
      exact hrest.head?_ne (by simp [isNameCharacter]) hc
    | cons d ds =>
      rw [hexponent] at hc
      obtain rfl : d = c := Option.some.inj hc
      obtain rfl | rfl := n.head_exponentText (c := d) (by rw [hexponent]; rfl) <;> decide
  unfold Numeral.fractionText
  cases hfraction : n.fraction? with
  | none =>
    show fractionSpan (n.exponentText ++ rest) = ([], n.exponentText ++ rest)
    unfold fractionSpan
    split
    next heq => exact absurd rfl (hhead (c := '.') (by rw [heq]; rfl)).2
    next => rfl
  | some cs =>
    have hspan := span_append (n.fractionIsDigit cs hfraction) fun c hc => (hhead hc).1
    show fractionSpan ('.' :: (cs ++ (n.exponentText ++ rest))) = ('.' :: cs, n.exponentText ++ rest)
    rw [fractionSpan, hspan.1, hspan.2]

/-- A number is cut off where it ends. -/
theorem numberSpan_text (n : Numeral) (hrest : EndsWord rest) :
    numberSpan (n.text ++ rest) = (n.text, rest) := by
  have hspan : (n.text ++ rest).takeWhile Char.isDigit = n.whole ∧
      (n.text ++ rest).dropWhile Char.isDigit = n.fractionText ++ (n.exponentText ++ rest) := by
    rw [Numeral.text, List.append_assoc, List.append_assoc]
    refine span_append n.wholeIsDigit fun c hc => ?_
    rw [← List.append_assoc] at hc
    cases htail : n.fractionText ++ n.exponentText with
    | nil =>
      rw [htail] at hc
      exact hrest.isDigit hc
    | cons d ds =>
      rw [htail] at hc
      exact n.head_tail (by rw [htail]; exact hc)
  rw [numberSpan, hspan.1, hspan.2, fractionSpan_fractionText n hrest]
  dsimp only
  rw [exponentSpan_exponentText n hrest, Numeral.text, List.append_assoc]

/-- A text is read up to its closing quote, behind which no further quote stands. -/
theorem readText?_quoted (s : List Char) (hrest : rest.head? ≠ some '"') :
    readText? (s.flatMap (fun c => if c = '"' then ['"', '"'] else [c]) ++ '"' :: rest) =
      some (s, rest) := by
  induction s with
  | nil =>
    rw [List.flatMap_nil, List.nil_append, readText?]
    · exact if_pos rfl
    · rintro cs - rfl
      exact hrest rfl
  | cons c s ih =>
    rw [List.flatMap_cons, List.append_assoc]
    split
    next hc =>
      rw [hc, List.cons_append, List.cons_append, List.nil_append, readText?, ih]
      rfl
    next hc =>
      rw [List.cons_append, List.nil_append, readText?, if_neg hc, ih]
      · rfl
      · exact fun _ heq => absurd heq hc

/-- Whether a character right behind a token would be read as a part of it. -/
def Token.takes : Token → Char → Bool
  | number _, c => isNameCharacter c
  | name _, c => isNameCharacter c
  | text _, c => c = '"'
  | operator (.compare .lt), c => c = '=' || c = '>'
  | operator (.compare .gt), c => c = '='
  | _, _ => false

theorem Token.takes_of_isBlank (t : Token) {c : Char} (hc : isBlank c = true) : t.takes c = false := by
  have hne {d : Char} (hd : isBlank d = false) : c ≠ d := by
    rintro rfl
    rw [hc] at hd
    cases hd
  have hquote : c ≠ '"' := hne (by decide)
  have heq : c ≠ '=' := hne (by decide)
  have hgt : c ≠ '>' := hne (by decide)
  unfold takes
  split <;> simp [isNameCharacter_of_isBlank hc, hquote, heq, hgt]

theorem wordLexeme_number (n : Numeral) (hrest : EndsWord rest) {c : Char} {cs : List Char}
    (htext : n.text = c :: cs) (hc : c.isDigit = true ∨ c = '.') :
    wordLexeme c (cs ++ rest) = .ok (.number n.toFloat, rest) := by
  have hspan : numberSpan (c :: (cs ++ rest)) = (n.text, rest) := by
    rw [← List.cons_append, ← htext, numberSpan_text n hrest]
  rw [wordLexeme, if_pos (by simpa using hc), hspan]
  dsimp only
  rw [n.parse?_text]

theorem wordLexeme_name {c : Char} {cs : List Char} (hc : isLetter c = true ∨ c = '_')
    (hcs : ∀ d ∈ cs, isNameCharacter d = true) (hrest : EndsWord rest) :
    wordLexeme c (cs ++ rest) = .ok (.name (String.ofList (c :: cs)), rest) := by
  have hspan := span_append hcs hrest
  have hnumber : ¬(c.isDigit || c = '.') = true := by
    obtain hletter | rfl := hc
    · intro hnumber
      rw [Bool.or_eq_true, decide_eq_true_iff] at hnumber
      rw [not_isLetter_of_number hnumber] at hletter
      cases hletter
    · decide
  rw [wordLexeme, if_neg hnumber, if_pos (by simpa using hc), hspan.1, hspan.2]

/-- A word begins with a character of names. -/
theorem exists_wordLexeme {t : Token} {cs : List Char} (h : t.Spelled cs) (hword : t.isWord = true)
    (hrest : EndsWord rest) : ∃ c cs', cs = c :: cs' ∧ isNameCharacter c = true ∧
      wordLexeme c (cs' ++ rest) = .ok (t, rest) := by
  cases h with
  | number n =>
    obtain ⟨c, cs', htext, hc⟩ := n.exists_text_eq_cons
    refine ⟨c, cs', htext, ?_, wordLexeme_number n hrest htext hc⟩
    obtain hdigit | rfl := hc
    · exact isNameCharacter_of_isDigit hdigit
    · simp [isNameCharacter]
  | @name c cs' hc hcs =>
    refine ⟨c, cs', rfl, ?_, wordLexeme_name hc hcs hrest⟩
    obtain hletter | rfl := hc
    · simp [isNameCharacter, hletter]
    · simp [isNameCharacter]
  | _ => cases hword

/-- An operator is read whole, if no longer one begins with it. -/
theorem exists_lexeme_operator (op : BinaryOp)
    (hrest : ∀ c ∈ rest.head?, (Token.operator op).takes c = false) :
    ∃ c cs, op.symbol.toList = c :: cs ∧ isBlank c = false ∧
      lexeme c (cs ++ rest) = .ok (.operator op, rest) := by
  cases op with
  | compare op =>
    cases op with
    | lt =>
      refine ⟨'<', [], rfl, by decide, ?_⟩
      cases rest with
      | nil => rfl
      | cons c rest =>
        have htakes := hrest c rfl
        simp only [Token.takes, Bool.or_eq_false_iff, decide_eq_false_iff_not] at htakes
        simp [lexeme, htakes]
    | gt =>
      refine ⟨'>', [], rfl, by decide, ?_⟩
      cases rest with
      | nil => rfl
      | cons c rest =>
        have htakes := hrest c rfl
        simp only [Token.takes, decide_eq_false_iff_not] at htakes
        simp [lexeme, htakes]
    | _ => exact ⟨_, _, rfl, by decide, rfl⟩
  | _ => exact ⟨_, _, rfl, by decide, rfl⟩

/-- A written token is read up to its end, if what stands behind it is not taken for a part of it. -/
theorem Token.Spelled.exists_lexeme {t : Token} {cs : List Char} (h : t.Spelled cs)
    (hrest : ∀ c ∈ rest.head?, t.takes c = false) :
    ∃ c cs', cs = c :: cs' ∧ isBlank c = false ∧ lexeme c (cs' ++ rest) = .ok (t, rest) := by
  by_cases hword : t.isWord = true
  · have hends : EndsWord rest := by
      cases t with
      | number | name => exact hrest
      | _ => cases hword
    obtain ⟨c, cs', rfl, hname, hlexeme⟩ := exists_wordLexeme h hword hends
    have hsymbol : c ∉ symbols := fun hc => by
      rw [isNameCharacter_of_mem_symbols hc] at hname
      cases hname
    refine ⟨c, cs', rfl, Bool.eq_false_iff.mpr fun hblank => ?_, ?_⟩
    · rw [isNameCharacter_of_isBlank hblank] at hname
      cases hname
    · rw [lexeme_of_not_symbol hsymbol, hlexeme]
  · cases h with
    | number | name => exact absurd rfl hword
    | text s =>
      have hquote : rest.head? ≠ some '"' := fun hc => by
        have htakes := hrest '"' hc
        simp [takes] at htakes
      refine ⟨'"', _, rfl, by decide, ?_⟩
      rw [List.append_assoc, lexeme, List.singleton_append, readText?_quoted s hquote]
    | operator op => exact exists_lexeme_operator op hrest
    | _ => exact ⟨_, _, rfl, by decide, rfl⟩

theorem BinaryOp.exists_symbol_eq_cons (op : BinaryOp) :
    ∃ c cs, op.symbol.toList = c :: cs ∧ c ∈ symbols ∧ c ≠ '"' := by
  cases op with
  | compare op => cases op <;> exact ⟨_, _, rfl, by decide, by decide⟩
  | _ => exact ⟨_, _, rfl, by decide, by decide⟩

namespace Token

variable {t u : Token} {c : Char} {cs : List Char}

theorem Spelled.isNameCharacter (h : u.Spelled cs) (hc : c ∈ cs.head?) (hword : u.isWord = true) :
    isNameCharacter c = true := by
  have hend : EndsWord [] := nofun
  obtain ⟨d, ds, rfl, hd, -⟩ := exists_wordLexeme h hword hend
  obtain rfl := Option.some.inj hc
  exact hd

theorem Spelled.mem_symbols (h : u.Spelled cs) (hc : c ∈ cs.head?) (hword : u.isWord = false) :
    c ∈ symbols := by
  cases h with
  | number | name => cases hword
  | operator op =>
    obtain ⟨d, ds, hop, hd, -⟩ := op.exists_symbol_eq_cons
    rw [hop] at hc
    obtain rfl := Option.some.inj hc
    exact hd
  | _ =>
    obtain rfl := Option.some.inj hc
    decide

/-- Only a text begins with a quote. -/
theorem Spelled.of_quote (h : u.Spelled cs) (hc : '"' ∈ cs.head?) : ∃ s, u = .text s := by
  cases hword : u.isWord with
  | true =>
    have hname := h.isNameCharacter hc hword
    rw [isNameCharacter_of_mem_symbols (by decide)] at hname
    cases hname
  | false =>
    cases h with
    | text s => exact ⟨_, rfl⟩
    | operator op =>
      obtain ⟨d, ds, hop, -, hd⟩ := op.exists_symbol_eq_cons
      rw [hop] at hc
      exact absurd (Option.some.inj hc) hd
    | number | name => cases hword
    | _ => cases hc

/-- Only an operator begins with a sign that can end a longer one. -/
theorem Spelled.beginsOperator (h : u.Spelled cs) (hc : c ∈ cs.head?) (hsign : c = '=' ∨ c = '>') :
    u.beginsOperator c = true := by
  cases hword : u.isWord with
  | true =>
    have hname := h.isNameCharacter hc hword
    have hsymbol : c ∈ symbols := by obtain rfl | rfl := hsign <;> decide
    rw [isNameCharacter_of_mem_symbols hsymbol] at hname
    cases hname
  | false =>
    cases h with
    | operator op => exact decide_eq_true hc
    | number | name => cases hword
    | _ =>
      obtain rfl := Option.some.inj hc
      simp at hsign

/-- A token that does not cling to the next one does not take its first character. -/
theorem Spelled.takes_eq_false (h : u.Spelled cs) (hc : c ∈ cs.head?) (hclings : t.clings u = false) :
    t.takes c = false := by
  have hsign {d : Char} (hd : d = '=' ∨ d = '>') (hnot : u.beginsOperator d = false) : c ≠ d := by
    rintro rfl
    rw [h.beginsOperator hc hd] at hnot
    cases hnot
  unfold takes
  split
  next => exact isNameCharacter_of_mem_symbols (h.mem_symbols hc hclings)
  next => exact isNameCharacter_of_mem_symbols (h.mem_symbols hc hclings)
  next =>
    refine decide_eq_false ?_
    rintro rfl
    obtain ⟨s, rfl⟩ := h.of_quote hc
    cases hclings
  next =>
    obtain ⟨heq, hgt⟩ := Bool.or_eq_false_iff.mp hclings
    simp [hsign (.inl rfl) heq, hsign (.inr rfl) hgt]
  next => exact decide_eq_false (hsign (.inl rfl) hclings)
  next => rfl

end Token

theorem tokensFrom_blanks (total : Nat) {blanks : List Char} (hblanks : ∀ c ∈ blanks, isBlank c = true)
    (rest : List Char) : tokensFrom total (blanks ++ rest) = tokensFrom total rest := by
  have hstart : trimStart (blanks ++ rest) = trimStart rest := List.dropWhile_append_of_pos hblanks
  rw [tokensFrom_eq, hstart, ← tokensFrom_eq]

/-- What stands behind a token in a row is not taken for a part of it. -/
theorem Written.takes_eq_false {t : Token} {ts : List Token} {blanks rest : List Char}
    (hblanks : ∀ c ∈ blanks, isBlank c = true)
    (happart : ∀ u ∈ ts.head?, t.clings u = true → blanks ≠ []) (h : Written ts rest) :
    ∀ c ∈ (blanks ++ rest).head?, t.takes c = false := by
  intro c hc
  cases blanks with
  | cons b blanks =>
    obtain rfl : b = c := Option.some.inj hc
    exact t.takes_of_isBlank (hblanks b List.mem_cons_self)
  | nil =>
    cases h with
    | nil => cases hc
    | @cons u ts cs blanks rest hu _ _ _ =>
      have hend : ∀ d ∈ ([] : List Char).head?, u.takes d = false := nofun
      obtain ⟨d, ds, rfl, -⟩ := hu.exists_lexeme hend
      refine hu.takes_eq_false hc (Bool.eq_false_iff.mpr fun hclings => ?_)
      exact happart u rfl hclings rfl

theorem tokensFrom_written {ts : List Token} {cs : List Char} (h : Written ts cs) (total : Nat) :
    tokensFrom total cs = .ok ts := by
  induction h with
  | nil => rw [tokensFrom_eq]; rfl
  | @cons t ts cs blanks rest ht hblanks happart hrest ih =>
    obtain ⟨c, cs', rfl, hblank, hlexeme⟩ :=
      ht.exists_lexeme (Written.takes_eq_false hblanks happart hrest)
    have hstart : trimStart (c :: (cs' ++ (blanks ++ rest))) = c :: (cs' ++ (blanks ++ rest)) :=
      List.dropWhile_cons_of_neg (by simp [hblank])
    rw [List.cons_append, tokensFrom_eq, hstart]
    dsimp only
    rw [hlexeme]
    dsimp only
    rw [tokensFrom_blanks total hblanks, ih]
    rfl

/-- A formula of written tokens has these tokens. -/
theorem tokenize_written {ts : List Token} {cs : List Char} (h : Written ts cs) :
    tokenize (String.ofList ('=' :: cs)) = .ok ts := by
  have hbody : body (String.ofList ('=' :: cs)) = cs := by
    rw [body, String.toList_ofList, trimStart, List.dropWhile_cons_of_neg (by decide)]
    rfl
  rw [tokenize, hbody]
  exact tokensFrom_written h _

/-- The number `1.5e-2`. -/
def leastDiscount : Numeral where
  whole := ['1']
  fraction? := some ['5']
  exponent? := some ⟨'e', some '-', ['2'], .inl rfl, by simp, List.all_eq_true.mp rfl, nofun⟩
  wholeIsDigit := List.all_eq_true.mp rfl
  fractionIsDigit := fun _ h => Option.some.inj h ▸ List.all_eq_true.mp rfl
  digits_ne_nil := nofun

def discountTokens : List Token :=
  [.name "IF", .openParen, .name "A1", .operator (.compare .ge), .number 0.015, .comma,
    .text "5\" disc", .closeParen]

theorem written_discountTokens :
    Written discountTokens "IF(A1>=1.5e-2 ,\"5\"\" disc\")".toList := by
  have hnone : ∀ c ∈ ([] : List Char), isBlank c = true := nofun
  have hblank : ∀ c ∈ [' '], isBlank c = true := List.all_eq_true.mp rfl
  have hrate : leastDiscount.toFloat = 0.015 := by decide +kernel
  have hif : Token.Spelled (.name "IF") ['I', 'F'] :=
    .name (.inl (isLetter_of_isAlpha rfl))
      (List.forall_mem_singleton.mpr (isNameCharacter_of_isAlpha rfl))
  have hcell : Token.Spelled (.name "A1") ['A', '1'] :=
    .name (.inl (isLetter_of_isAlpha rfl))
      (List.forall_mem_singleton.mpr (isNameCharacter_of_isDigit rfl))
  have hnumber : Token.Spelled (.number 0.015) ['1', '.', '5', 'e', '-', '2'] :=
    hrate ▸ .number leastDiscount
  have htext := Token.Spelled.text ['5', '"', ' ', 'd', 'i', 's', 'c']
  exact .cons hif hnone nofun <| .cons .openParen hnone nofun <| .cons hcell hnone nofun <|
    .cons (.operator _) hnone nofun <| .cons hnumber hblank nofun <| .cons .comma hnone nofun <|
    .cons htext hnone nofun <| .cons .closeParen hnone nofun .nil

theorem tokenize_discountTokens :
    Written discountTokens "IF(A1>=1.5e-2 ,\"5\"\" disc\")".toList ∧
      tokenize "=IF(A1>=1.5e-2 ,\"5\"\" disc\")" = .ok discountTokens :=
  ⟨written_discountTokens, tokenize_written written_discountTokens⟩

end Tabular.Formula
