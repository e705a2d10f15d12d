import Tabular.Document.Number
import Tabular.Number.Layout
import Tabular.Proofs.Number.Whole

/-!
# Reading written numbers

A number is read up to the first character that cannot belong to it. A whole number of at most 52
binary digits is read as the double that it was cut out of.
-/
namespace Tabular.Document

/-- A number ends in front of this text, since its first character cannot belong to the number. -/
def EndsNumber (rest : List Char) : Prop :=
  ∀ c ∈ rest.head?, c.isDigit = false ∧ c ≠ '.' ∧ c ≠ 'e' ∧ c ≠ 'E'

variable {cs rest : List Char}

theorem digits_append (cs : List Char) (hrest : EndsNumber rest) :
    (cs ++ rest).takeWhile Char.isDigit = cs.takeWhile Char.isDigit ∧
      (cs ++ rest).dropWhile Char.isDigit = cs.dropWhile Char.isDigit ++ rest := by
  induction cs with
  | nil =>
    cases rest with
    | nil => exact ⟨rfl, rfl⟩
    | cons c rest =>
      obtain ⟨hdigit, -⟩ := hrest c rfl
      simp [hdigit]
  | cons c cs ih =>
    rw [List.cons_append]
    by_cases hdigit : c.isDigit
    · simp [hdigit, ih]
    · simp [hdigit]

theorem readFraction?_point (cs : List Char) : readFraction? ('.' :: cs) =
    if cs.takeWhile Char.isDigit = [] then none
    else some (cs.takeWhile Char.isDigit, cs.dropWhile Char.isDigit) := rfl

theorem readFraction?_of_ne (h : cs.head? ≠ some '.') : readFraction? cs = some ([], cs) := by
  unfold readFraction?
  split
  next => exact absurd rfl h
  next => rfl

theorem readFraction?_append (hrest : EndsNumber rest) {digits left : List Char}
    (h : readFraction? cs = some (digits, left)) :
    readFraction? (cs ++ rest) = some (digits, left ++ rest) := by
  cases cs with
  | nil =>
    cases h
    exact readFraction?_of_ne fun hpoint => (hrest '.' hpoint).2.1 rfl
  | cons c cs =>
    by_cases hpoint : c = '.'
    · obtain ⟨htake, hdrop⟩ := digits_append cs hrest
      subst hpoint
      rw [List.cons_append, readFraction?_point, htake, hdrop]
      rw [readFraction?_point] at h
      split at h
      next => cases h
      next hne =>
        cases h
        exact if_neg hne
    · rw [readFraction?_of_ne (by simpa using hpoint)] at h
      cases h
      exact readFraction?_of_ne (by simpa using hpoint)

theorem readExponentDigits?_append (hrest : EndsNumber rest) {negative : Bool} {n : Int}
    {left : List Char} (h : readExponentDigits? negative cs = some (n, left)) :
    readExponentDigits? negative (cs ++ rest) = some (n, left ++ rest) := by
  obtain ⟨htake, hdrop⟩ := digits_append cs hrest
  rw [readExponentDigits?] at h ⊢
  rw [htake, hdrop]
  split at h
  next => cases h
  next hne =>
    cases h
    exact if_neg hne

theorem readSignedExponent?_append (hrest : EndsNumber rest) {n : Int} {left : List Char}
    (h : readSignedExponent? cs = some (n, left)) :
    readSignedExponent? (cs ++ rest) = some (n, left ++ rest) := by
  unfold readSignedExponent? at h
  split at h
  next cs => exact readExponentDigits?_append hrest h
  next cs => exact readExponentDigits?_append hrest h
  next hminus hplus =>
    have hagain := readExponentDigits?_append hrest h
    cases cs with
    | nil => cases h
    | cons c cs =>
      rw [List.cons_append] at hagain ⊢
      unfold readSignedExponent?
      split
      next heq =>
        cases heq
        exact absurd rfl (hminus cs)
      next heq =>
        cases heq
        exact absurd rfl (hplus cs)
      next => exact hagain

theorem readExponent?_append (hrest : EndsNumber rest) {n : Int} {left : List Char}
    (h : readExponent? cs = some (n, left)) :
    readExponent? (cs ++ rest) = some (n, left ++ rest) := by
  unfold readExponent? at h
  split at h
  next cs => exact readSignedExponent?_append hrest h
  next cs => exact readSignedExponent?_append hrest h
  next hlower hupper =>
    cases h
    have hnone (more : List Char) : cs ++ rest ≠ 'e' :: more ∧ cs ++ rest ≠ 'E' :: more := by
      cases cs with
      | nil =>
        constructor
        · rintro rfl
          exact (hrest 'e' rfl).2.2.1 rfl
        · rintro rfl
          exact (hrest 'E' rfl).2.2.2 rfl
      | cons c cs =>
        constructor
        · intro heq
          exact hlower cs (by rw [(List.cons.inj heq).1])
        · intro heq
          exact hupper cs (by rw [(List.cons.inj heq).1])
    unfold readExponent?
    split
    next more heq => exact absurd heq (hnone more).1
    next more heq => exact absurd heq (hnone more).2
    next => rfl

theorem readMagnitude?_append (hrest : EndsNumber rest) {x : Float} {left : List Char}
    (h : readMagnitude? cs = some (x, left)) :
    readMagnitude? (cs ++ rest) = some (x, left ++ rest) := by
  obtain ⟨htake, hdrop⟩ := digits_append cs hrest
  rw [readMagnitude?] at h ⊢
  dsimp only at h ⊢
  rw [htake, hdrop]
  split at h
  next => cases h
  next hwhole =>
    rw [if_neg hwhole]
    obtain ⟨⟨fraction, afterFraction⟩, hfraction, h⟩ := Option.bind_eq_some_iff.mp h
    obtain ⟨⟨exponent, afterExponent⟩, hexponent, h⟩ := Option.bind_eq_some_iff.mp h
    obtain ⟨y, hmagnitude, h⟩ := Option.bind_eq_some_iff.mp h
    cases h
    refine Option.bind_eq_some_iff.mpr ⟨_, readFraction?_append hrest hfraction, ?_⟩
    refine Option.bind_eq_some_iff.mpr ⟨_, readExponent?_append hrest hexponent, ?_⟩
    exact Option.bind_eq_some_iff.mpr ⟨_, hmagnitude, rfl⟩

theorem readNumber?_minus (cs : List Char) : readNumber? ('-' :: cs) =
    (readMagnitude? cs).map fun (x, rest) => (.number (-x), rest) := rfl

theorem readNumber?_of_ne (h : cs.head? ≠ some '-') : readNumber? cs =
    (readMagnitude? cs).map fun (x, rest) => (.number x, rest) := by
  unfold readNumber?
  split
  next => exact absurd rfl h
  next => rfl

/-- A number that is read from a text of its own is read from the front of a longer text that goes
on with something else. -/
theorem readNumber?_append (hrest : EndsNumber rest) {d : Document} {left : List Char}
    (h : readNumber? cs = some (d, left)) : readNumber? (cs ++ rest) = some (d, left ++ rest) := by
  cases cs with
  | nil => cases h
  | cons c cs =>
    by_cases hminus : c = '-'
    · subst hminus
      rw [readNumber?_minus] at h
      obtain ⟨⟨x, more⟩, hread, h⟩ := Option.map_eq_some_iff.mp h
      cases h
      rw [List.cons_append, readNumber?_minus, readMagnitude?_append hrest hread]
      rfl
    · rw [readNumber?_of_ne (by simpa using hminus)] at h
      obtain ⟨⟨x, more⟩, hread, h⟩ := Option.map_eq_some_iff.mp h
      cases h
      rw [readNumber?_of_ne (by simpa using hminus), readMagnitude?_append hrest hread]
      rfl

theorem exists_cons_of_readMagnitude? {x : Float} {left : List Char}
    (h : readMagnitude? cs = some (x, left)) : ∃ c more, cs = c :: more ∧ c.isDigit = true := by
  cases cs with
  | nil => cases h
  | cons c more =>
    refine ⟨c, more, rfl, ?_⟩
    by_contra hdigit
    rw [readMagnitude?, List.takeWhile_cons_of_neg hdigit] at h
    cases h

/-- A number starts with its sign or a digit. -/
theorem exists_cons_of_readNumber? {d : Document} {left : List Char}
    (h : readNumber? cs = some (d, left)) :
    ∃ c more, cs = c :: more ∧ (c = '-' ∨ c.isDigit = true) := by
  cases cs with
  | nil => cases h
  | cons c more =>
    by_cases hminus : c = '-'
    · exact ⟨c, more, rfl, .inl hminus⟩
    · rw [readNumber?_of_ne (by simpa using hminus)] at h
      obtain ⟨⟨x, rest⟩, hread, -⟩ := Option.map_eq_some_iff.mp h
      obtain ⟨c', more', heq, hdigit⟩ := exists_cons_of_readMagnitude? hread
      cases heq
      exact ⟨c, more, rfl, .inr hdigit⟩

/-- The number that digits behind a number stand for is at least that number. -/
theorem le_ofDigitChars (n : Nat) (cs : List Char) : n ≤ Nat.ofDigitChars 10 cs n := by
  induction cs generalizing n with
  | nil => rw [Nat.ofDigitChars_nil]
  | cons c cs ih =>
    rw [Nat.ofDigitChars_cons]
    have := ih (10 * n + (c.toNat - '0'.toNat))
    omega

/-- Digits of a number that is small enough are all gathered. -/
theorem gather_eq {n : Nat} {cs : List Char} (h : Nat.ofDigitChars 10 cs n ≤ maxSignificand) :
    gather n cs = (Nat.ofDigitChars 10 cs n, []) := by
  induction cs generalizing n with
  | nil => rw [gather, Nat.ofDigitChars_nil]
  | cons c cs ih =>
    rw [Nat.ofDigitChars_cons] at h ⊢
    rw [gather]
    exact (if_pos ((le_ofDigitChars _ cs).trans h)).trans (ih h)

theorem head?_toDigits {n : Nat} (h : (Nat.toDigits 10 n).head? = some '0') : n = 0 := by
  induction n using Nat.strongRecOn with
  | ind n ih =>
    rw [Nat.toDigits_eq_if (by decide)] at h
    split at h
    next => simpa using h
    next hge =>
      rw [List.head?_append_of_ne_nil _ Nat.toDigits_ne_nil] at h
      have := ih (n / 10) (by omega) h
      omega

@[simp] theorem scale?_zero {x : Float} (h : x.isFinite = true) : scale? x 0 = some x := by
  have hone : Number.Decimal.toFloat ⟨1, 0⟩ = 1.0 := by decide +kernel
  rw [scale?]
  split
  · rfl
  · rw [if_neg (by decide), if_neg (by decide), if_pos (by decide), hone, Number.mul_one]
    simp [h]

theorem readMagnitude?_toDigits {n : Nat} (h : n < 2 ^ 52) :
    readMagnitude? (Nat.toDigits 10 n) = some (n.toUInt64.toFloat, []) := by
  have hdigits : ∀ c ∈ Nat.toDigits 10 n, c.isDigit = true := fun c hc =>
    Nat.isDigit_of_mem_toDigits (by decide) (by decide) hc
  have hgather : gather 0 (Nat.toDigits 10 n) = (n, []) := by
    rw [gather_eq, Nat.ofDigitChars_ten_toDigits]
    rw [Nat.ofDigitChars_ten_toDigits]
    exact h.le.trans (by decide)
  have hmagnitude : magnitude? (Nat.toDigits 10 n) [] 0 = some n.toUInt64.toFloat := by
    rw [magnitude?, hgather, gather, Number.ofNat_eq_toFloat (h.trans (by decide))]
    exact scale?_zero (Number.isFinite_toFloat _)
  have hwhole : ¬(Nat.toDigits 10 n = [] ∨
      (Nat.toDigits 10 n).head? = some '0' ∧ Nat.toDigits 10 n ≠ ['0']) := by
    rintro (hnil | ⟨hhead, hne⟩)
    · exact Nat.toDigits_ne_nil hnil
    · rw [head?_toDigits hhead] at hne
      exact hne rfl
  rw [readMagnitude?]
  dsimp only
  rw [List.takeWhile_eq_self_iff.mpr hdigits, List.dropWhile_eq_nil_iff.mpr hdigits, if_neg hwhole]
  refine Option.bind_eq_some_iff.mpr ⟨([], []), rfl, ?_⟩
  refine Option.bind_eq_some_iff.mpr ⟨(0, []), rfl, ?_⟩
  exact Option.bind_eq_some_iff.mpr ⟨_, hmagnitude, rfl⟩

/-- The whole number that is written for a double is read as the double. Only the sign of a negative
zero is not written. -/
theorem readNumber?_intText {x : Float} (h : Number.isIntegral x = true)
    (hlt : Number.wholePart x < 2 ^ 52) (hx : x ≠ -0.0) :
    readNumber? (Number.intText
      (if Number.isNegative x then -(Number.wholePart x : Int) else Number.wholePart x)) =
      some (.number x, []) := by
  have hfinite : x.isFinite = true := (Bool.and_eq_true_iff.mp h).1
  have hsigned := Number.signed_abs hfinite
  have hword := Number.toFloat_wholePart h hlt
  generalize hn : Number.wholePart x = n at hlt hword ⊢
  have hread := readMagnitude?_toDigits hlt
  rw [hword] at hread
  by_cases hneg : Number.isNegative x
  · have hpos : 0 < n := by
      refine Nat.pos_of_ne_zero ?_
      rintro rfl
      exact Bool.false_ne_true ((Number.isNegative_of_abs_eq_zero hfinite hword.symm hx).symm.trans hneg)
    rw [if_pos hneg] at hsigned ⊢
    rw [Number.intText, if_pos (by omega), Int.natAbs_neg, Int.natAbs_natCast, readNumber?_minus,
      hread, Option.map_some]
    dsimp only
    rw [hsigned]
  · have hhead : (Nat.toDigits 10 n).head? ≠ some '-' := fun hhead =>
      absurd (Nat.isDigit_of_mem_toDigits (by decide) (by decide) (List.mem_of_head? hhead))
        (by decide)
    rw [if_neg hneg] at hsigned ⊢
    rw [Number.intText, if_neg (by omega), Int.natAbs_natCast, readNumber?_of_ne hhead, hread,
      Option.map_some, hsigned]

end Tabular.Document
