import Tabular.Formula.Token
import Tabular.Text.Letter

/-!
# Cutting a formula into tokens

Each token is the longest that can be read where it starts; blanks between tokens are skipped.
Every token takes at least one character, so the cutting ends.
-/
namespace Tabular.Formula

/-- The characters of a formula after the blanks and the one equals sign that may lead it. -/
def body (s : String) : List Char :=
  match Text.trimStart s.toList with
  | '=' :: cs => cs
  | cs => cs

/-- The contents of a text literal after its opening quote, and the rest behind its closing quote.
A quote inside is written twice. -/
def readText? : List Char → Option (List Char × List Char)
  | [] => none
  | '"' :: '"' :: cs => (readText? cs).map fun (s, rest) => ('"' :: s, rest)
  | c :: cs =>
    if c = '"' then some ([], cs) else (readText? cs).map fun (s, rest) => (c :: s, rest)

/-- A point with the digits behind it, if there is one. -/
def fractionSpan : List Char → List Char × List Char
  | '.' :: cs => ('.' :: cs.takeWhile Char.isDigit, cs.dropWhile Char.isDigit)
  | cs => ([], cs)

/-- The sign in front of an exponent's digits, if there is one. -/
def signSpan : List Char → List Char × List Char
  | '+' :: cs => (['+'], cs)
  | '-' :: cs => (['-'], cs)
  | cs => ([], cs)

/-- An exponent mark with the sign and the digits behind it, if there is one. -/
def exponentSpan : List Char → List Char × List Char
  | [] => ([], [])
  | c :: cs =>
    if c = 'e' ∨ c = 'E' then
      let (sign, afterSign) := signSpan cs
      (c :: sign ++ afterSign.takeWhile Char.isDigit, afterSign.dropWhile Char.isDigit)
    else ([], c :: cs)

/-- The longest run of characters that can belong to a number, and the rest. -/
def numberSpan (cs : List Char) : List Char × List Char :=
  let (fraction, afterFraction) := fractionSpan (cs.dropWhile Char.isDigit)
  let (exponent, rest) := exponentSpan afterFraction
  (cs.takeWhile Char.isDigit ++ fraction ++ exponent, rest)

def isNameCharacter (c : Char) : Bool := Text.isLetter c || Text.isNumeral c || c = '_' || c = '.'

/-- The number or name that starts with a given character, and the rest behind it. -/
def wordLexeme (c : Char) (cs : List Char) : Except LexicalCause (Token × List Char) :=
  if c.isDigit || c = '.' then
    match Number.parse? (numberSpan (c :: cs)).1 with
    | some n => .ok (.number n, (numberSpan (c :: cs)).2)
    | none => .error (.invalidNumber (String.ofList (numberSpan (c :: cs)).1))
  else if Text.isLetter c || c = '_' then
    .ok (.name (String.ofList (c :: cs.takeWhile isNameCharacter)), cs.dropWhile isNameCharacter)
  else .error (.unexpectedCharacter c)

/-- The token that starts with a given character, and the rest behind it. -/
def lexeme (c : Char) (cs : List Char) : Except LexicalCause (Token × List Char) :=
  match c with
  | '"' => match readText? cs with
    | some (s, rest) => .ok (.text (String.ofList s), rest)
    | none => .error .unterminatedText
  | '(' => .ok (.openParen, cs)
  | ')' => .ok (.closeParen, cs)
  | ',' => .ok (.comma, cs)
  | ':' => .ok (.colon, cs)
  | '+' => .ok (.operator .add, cs)
  | '-' => .ok (.operator .subtract, cs)
  | '*' => .ok (.operator .multiply, cs)
  | '/' => .ok (.operator .divide, cs)
  | '^' => .ok (.operator .power, cs)
  | '=' => .ok (.operator (.compare .eq), cs)
  | '<' => match cs with
    | '=' :: rest => .ok (.operator (.compare .le), rest)
    | '>' :: rest => .ok (.operator (.compare .ne), rest)
    | rest => .ok (.operator (.compare .lt), rest)
  | '>' => match cs with
    | '=' :: rest => .ok (.operator (.compare .ge), rest)
    | rest => .ok (.operator (.compare .gt), rest)
  | c => wordLexeme c cs

theorem length_dropWhile_le {α : Type} (p : α → Bool) (l : List α) :
    (l.dropWhile p).length ≤ l.length := (List.dropWhile_sublist p).length_le

theorem readText?_length {cs s rest : List Char} (h : readText? cs = some (s, rest)) :
    rest.length ≤ cs.length := by
  fun_induction readText? cs generalizing s with
  | case1 => simp at h
  | case2 cs ih =>
    obtain ⟨⟨s', rest'⟩, h', he⟩ := Option.map_eq_some_iff.1 h
    have := ih (s := s') (by rw [h']; simp_all)
    simp; omega
  | case3 cs => simp_all
  | case4 c cs _ hc ih =>
    obtain ⟨⟨s', rest'⟩, h', he⟩ := Option.map_eq_some_iff.1 h
    have := ih (s := s') (by rw [h']; simp_all)
    simp; omega

theorem fractionSpan_length (cs : List Char) : (fractionSpan cs).2.length ≤ cs.length := by
  unfold fractionSpan
  split
  · have := length_dropWhile_le Char.isDigit (by assumption)
    simp; omega
  · simp

theorem signSpan_length (cs : List Char) : (signSpan cs).2.length ≤ cs.length := by
  unfold signSpan
  split <;> simp

theorem exponentSpan_length (cs : List Char) : (exponentSpan cs).2.length ≤ cs.length := by
  unfold exponentSpan
  split
  · simp
  · split
    · rename_i c cs _
      have h := signSpan_length cs
      have := length_dropWhile_le Char.isDigit (signSpan cs).2
      simp; omega
    · simp

/-- A number that starts with a digit or a point takes at least that character. -/
theorem numberSpan_length {c : Char} (cs : List Char) (h : (c.isDigit || c = '.') = true) :
    (numberSpan (c :: cs)).2.length ≤ cs.length := by
  have he := exponentSpan_length (fractionSpan ((c :: cs).dropWhile Char.isDigit)).2
  by_cases hc : c.isDigit = true
  · have hf := fractionSpan_length (cs.dropWhile Char.isDigit)
    have hd := length_dropWhile_le Char.isDigit cs
    simp only [numberSpan]
    simp only [List.dropWhile_cons, hc, if_true] at he ⊢
    omega
  · have hp : c = '.' := by simpa [hc] using h
    subst hp
    have hd := length_dropWhile_le Char.isDigit cs
    simp only [numberSpan]
    simp only [List.dropWhile_cons, hc, fractionSpan] at he ⊢
    simp only [Bool.false_eq_true, if_false] at he ⊢
    omega

theorem wordLexeme_length {c : Char} {cs rest : List Char} {t : Token}
    (h : wordLexeme c cs = .ok (t, rest)) : rest.length ≤ cs.length := by
  unfold wordLexeme at h
  split at h
  · rename_i hc
    have := numberSpan_length cs hc
    split at h
    · cases h; exact this
    · cases h
  · split at h
    · cases h; exact length_dropWhile_le isNameCharacter cs
    · cases h

/-- A token takes at least its first character. -/
theorem lexeme_length {c : Char} {cs rest : List Char} {t : Token} (h : lexeme c cs = .ok (t, rest)) :
    rest.length ≤ cs.length := by
  unfold lexeme at h
  split at h
  case h_1 =>
    split at h
    · rename_i hr
      cases h; exact readText?_length hr
    · cases h
  case h_12 => split at h <;> cases h <;> simp
  case h_13 => split at h <;> cases h <;> simp
  case h_14 => exact wordLexeme_length h
  all_goals cases h; exact Nat.le_refl _

/-- The tokens of a text of which `total` characters were there at the start. -/
def tokensFrom (total : Nat) (cs : List Char) : Except LexicalFault (List Token) :=
  match _h : Text.trimStart cs with
  | [] => .ok []
  | c :: cs' => match _hl : lexeme c cs' with
    | .error cause => .error ⟨cause, total - (cs'.length + 1)⟩
    | .ok (t, rest) => (tokensFrom total rest).map (t :: ·)
termination_by cs.length
decreasing_by
  have h1 := lexeme_length _hl
  have h2 := length_dropWhile_le Text.isBlank cs
  unfold Text.trimStart at _h
  rw [_h] at h2
  simp at h2
  omega

def tokenize (s : String) : Except LexicalFault (List Token) :=
  tokensFrom (body s).length (body s)

end Tabular.Formula
