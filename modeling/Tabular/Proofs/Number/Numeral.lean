import Tabular.Proofs.Text.Case

/-!
# Numbers as they are written

A numeral is a row of digits with an optional point before, among or behind them and an optional
exponent. It has a decimal for its value, and reading its characters gives the double nearest to it.
-/
namespace Tabular

/-- A run of characters of a class ends where another character stands behind it. -/
theorem Text.span_append {p : Char → Bool} {cs rest : List Char} (h : ∀ c ∈ cs, p c = true)
    (hrest : ∀ c ∈ rest.head?, p c = false) :
    (cs ++ rest).takeWhile p = cs ∧ (cs ++ rest).dropWhile p = rest := by
  have hstop : rest.takeWhile p = [] ∧ rest.dropWhile p = rest := by
    cases rest with
    | nil => exact ⟨rfl, rfl⟩
    | cons c rest =>
      have hc : ¬p c = true := by simp [hrest c rfl]
      exact ⟨List.takeWhile_cons_of_neg hc, List.dropWhile_cons_of_neg hc⟩
  rw [List.takeWhile_append_of_pos h, List.dropWhile_append_of_pos h, hstop.1, hstop.2,
    List.append_nil]
  exact ⟨rfl, rfl⟩

namespace Number

structure Exponent where
  mark : Char
  sign? : Option Char
  digits : List Char
  isMark : mark = 'e' ∨ mark = 'E'
  isSign : ∀ c ∈ sign?, c = '+' ∨ c = '-'
  isDigit : ∀ c ∈ digits, c.isDigit = true
  digits_ne_nil : digits ≠ []

namespace Exponent

def text (e : Exponent) : List Char := e.mark :: (e.sign?.toList ++ e.digits)

def value (e : Exponent) : Int :=
  if e.sign? = some '-' then -(digitsValue e.digits : Int) else digitsValue e.digits

/-- The first digit of an exponent is no sign. -/
theorem ne_sign_of_mem_digits {e : Exponent} {c : Char} (hc : c ∈ e.digits) : c ≠ '+' ∧ c ≠ '-' := by
  have hdigit := e.isDigit c hc
  constructor
  · rintro rfl
    cases hdigit
  · rintro rfl
    cases hdigit

theorem readExponent?_tail (e : Exponent) :
    readExponent? (e.sign?.toList ++ e.digits) = some e.value := by
  have hall : e.digits.all Char.isDigit = true := List.all_eq_true.mpr e.isDigit
  have hdigits : e.digits ≠ [] ∧ e.digits.all Char.isDigit = true := ⟨e.digits_ne_nil, hall⟩
  unfold value
  cases hsign : e.sign? with
  | none =>
    cases hcs : e.digits with
    | nil => exact absurd hcs e.digits_ne_nil
    | cons c cs =>
      obtain ⟨hplus, hminus⟩ := e.ne_sign_of_mem_digits (hcs ▸ List.mem_cons_self)
      rw [hcs] at hdigits
      simp [readExponent?, hplus, hminus, hdigits.2]
  | some c =>
    obtain rfl | rfl := e.isSign c hsign
    · exact if_pos hdigits
    · exact if_pos hdigits

end Exponent

structure Numeral where
  whole : List Char
  /-- The digits behind the point, if there is a point. -/
  fraction? : Option (List Char)
  exponent? : Option Exponent
  wholeIsDigit : ∀ c ∈ whole, c.isDigit = true
  fractionIsDigit : ∀ cs ∈ fraction?, ∀ c ∈ cs, c.isDigit = true
  digits_ne_nil : whole ++ fraction?.getD [] ≠ []

namespace Numeral

def fraction (n : Numeral) : List Char := n.fraction?.getD []

def fractionText (n : Numeral) : List Char := n.fraction?.elim [] ('.' :: ·)

def exponentText (n : Numeral) : List Char := n.exponent?.elim [] Exponent.text

def text (n : Numeral) : List Char := n.whole ++ (n.fractionText ++ n.exponentText)

def decimal (n : Numeral) : Decimal :=
  ⟨digitsValue (n.whole ++ n.fraction), n.exponent?.elim 0 Exponent.value - n.fraction.length⟩

def toFloat (n : Numeral) : Float := n.decimal.toFloat

/-- An exponent starts with no digit and no point. -/
theorem head_exponentText (n : Numeral) {c : Char} (hc : c ∈ n.exponentText.head?) :
    c = 'e' ∨ c = 'E' := by
  unfold exponentText at hc
  cases hexponent : n.exponent? with
  | none =>
    rw [hexponent] at hc
    cases hc
  | some e =>
    rw [hexponent] at hc
    obtain rfl : e.mark = c := Option.some.inj hc
    exact e.isMark

theorem head_tail (n : Numeral) {c : Char} (hc : c ∈ (n.fractionText ++ n.exponentText).head?) :
    c.isDigit = false := by
  unfold fractionText at hc
  cases hfraction : n.fraction? with
  | none =>
    rw [hfraction] at hc
    obtain rfl | rfl := n.head_exponentText hc <;> rfl
  | some cs =>
    rw [hfraction] at hc
    obtain rfl : '.' = c := Option.some.inj hc
    rfl

theorem afterPoint_tail (n : Numeral) :
    afterPoint (n.fractionText ++ n.exponentText) = (n.fraction, n.exponentText) := by
  unfold fractionText fraction
  cases hfraction : n.fraction? with
  | none =>
    show afterPoint n.exponentText = ([], n.exponentText)
    unfold afterPoint
    split
    next heq =>
      have hhead := n.head_exponentText (c := '.') (by rw [heq]; rfl)
      simp at hhead
    next => rfl
  | some cs =>
    have hstop : ∀ c ∈ n.exponentText.head?, c.isDigit = false := by
      intro c hc
      obtain rfl | rfl := n.head_exponentText hc <;> rfl
    have hspan := Text.span_append (n.fractionIsDigit cs hfraction) hstop
    exact Prod.ext hspan.1 hspan.2

theorem finalExponent?_exponentText (n : Numeral) :
    finalExponent? n.exponentText = some (n.exponent?.elim 0 Exponent.value) := by
  unfold exponentText
  cases n.exponent? with
  | none => rfl
  | some e => exact (if_pos e.isMark).trans e.readExponent?_tail

theorem readUnsigned?_text (n : Numeral) : readUnsigned? n.text = some n.decimal := by
  have hspan := Text.span_append n.wholeIsDigit fun c hc => n.head_tail hc
  have hdigits : n.whole ++ n.fraction ≠ [] := n.digits_ne_nil
  rw [readUnsigned?_eq, text, hspan.1, hspan.2, afterPoint_tail]
  dsimp only
  rw [if_neg hdigits, finalExponent?_exponentText]
  rfl

/-- The first character of a number, which is a digit or the point. -/
theorem exists_text_eq_cons (n : Numeral) :
    ∃ c cs, n.text = c :: cs ∧ (c.isDigit = true ∨ c = '.') := by
  cases hwhole : n.whole with
  | cons c cs =>
    refine ⟨c, _, by rw [text, hwhole]; rfl, .inl (n.wholeIsDigit c ?_)⟩
    rw [hwhole]
    exact List.mem_cons_self
  | nil =>
    cases hfraction : n.fraction? with
    | none => exact absurd (by rw [hwhole, hfraction]; rfl) n.digits_ne_nil
    | some cs => exact ⟨'.', _, by rw [text, hwhole, fractionText, hfraction]; rfl, .inr rfl⟩

/-- A number is read as the double nearest to its decimal. -/
theorem parse?_text (n : Numeral) : parse? n.text = some n.toFloat := by
  have hunsigned : parseUnsigned? n.text = some n.toFloat := by
    rw [parseUnsigned?, readUnsigned?_text]
    rfl
  obtain ⟨c, cs, htext, hc⟩ := n.exists_text_eq_cons
  rw [htext] at hunsigned ⊢
  unfold parse?
  split
  next heq =>
    obtain ⟨rfl, -⟩ := List.cons.inj heq
    simp at hc
  next heq =>
    obtain ⟨rfl, -⟩ := List.cons.inj heq
    simp at hc
  next => exact hunsigned

end Numeral

end Number

end Tabular
