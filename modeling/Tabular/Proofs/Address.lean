import Mathlib.Data.List.Basic
import Tabular.Proofs.Outcome

/-!
# Addresses are read as they are written

The letters of a column are digits in bijective base 26, and reading them gives the column back as
long as its number is one of 64 bits. So it is with whole addresses and with ranges.
-/
namespace Tabular

namespace Text

/-- A text that neither starts nor ends with a blank is trimmed already. -/
theorem trimmed_eq_self {cs : List Char} (hstart : ∀ c ∈ cs.head?, isBlank c = false)
    (hend : ∀ c ∈ cs.getLast?, isBlank c = false) : trimmed cs = cs := by
  have hkeep {l : List Char} (h : ∀ c ∈ l.head?, isBlank c = false) : l.dropWhile isBlank = l := by
    cases l with
    | nil => rfl
    | cons c l => exact List.dropWhile_cons_of_neg (by simp [h c rfl])
  rw [trimmed, trimEnd, trimStart, hkeep hstart, hkeep, List.reverse_reverse]
  rwa [List.head?_reverse]

theorem isAlpha_iff {c : Char} :
    c.isAlpha ↔ (65 ≤ c.toNat ∧ c.toNat ≤ 90) ∨ (97 ≤ c.toNat ∧ c.toNat ≤ 122) := by
  unfold Char.isAlpha Char.isUpper Char.isLower
  simp [UInt32.le_iff_toNat_le]

theorem isDigit_iff {c : Char} : c.isDigit ↔ 48 ≤ c.toNat ∧ c.toNat ≤ 57 := by
  simp [Char.isDigit, UInt32.le_iff_toNat_le]

theorem not_isAlpha_of_isDigit {c : Char} (h : c.isDigit) : ¬c.isAlpha := by
  rw [isDigit_iff] at h
  rw [isAlpha_iff]
  omega

/-- Neither a letter nor a digit is blank. -/
theorem isBlank_of_isAlpha_or_isDigit {c : Char} (h : c.isAlpha ∨ c.isDigit) : isBlank c = false := by
  rw [isAlpha_iff, isDigit_iff] at h
  simp only [isBlank, inRanges, blankRanges, List.any_cons, List.any_nil, Bool.or_eq_false_iff,
    Bool.and_eq_false_iff, decide_eq_false_iff_not, and_true]
  omega

end Text

theorem letterDigit?_ofNat {d : Nat} (hd : d < 26) :
    letterDigit? (Char.ofNat ('A'.toNat + d)) = some (d + 1) := by
  revert d
  decide

theorem ordinalLetters_of_ne_zero {n : Nat} (hn : n ≠ 0) :
    ordinalLetters n = ordinalLetters ((n - 1) / 26) ++ [Char.ofNat ('A'.toNat + (n - 1) % 26)] := by
  rw [ordinalLetters, if_neg hn]

theorem ordinalLetters_ne_nil {n : Nat} (hn : n ≠ 0) : ordinalLetters n ≠ [] := by
  simp [ordinalLetters_of_ne_zero hn]

theorem isUpper_of_mem_ordinalLetters {n : Nat} {c : Char} (hc : c ∈ ordinalLetters n) : c.isUpper := by
  induction n using ordinalLetters.induct with
  | case1 => simp [ordinalLetters] at hc
  | case2 n h ih =>
    rw [ordinalLetters_of_ne_zero h, List.mem_append, List.mem_singleton] at hc
    rcases hc with hc | hc
    · exact ih hc
    · have hlt : (n - 1) % 26 < 26 := Nat.mod_lt _ (by decide)
      rw [hc]
      generalize (n - 1) % 26 = d at hlt
      revert d
      decide

theorem isAlpha_of_mem_ordinalLetters {n : Nat} {c : Char} (hc : c ∈ ordinalLetters n) : c.isAlpha := by
  unfold Char.isAlpha
  rw [isUpper_of_mem_ordinalLetters hc, Bool.true_or]

/-- Reading the letters from the left gives the number that they were written for. -/
theorem foldlM_ordinalLetters {n : Nat} (hn : n ≤ maxOrdinal) :
    (ordinalLetters n).foldlM ordinalStep? 0 = some n := by
  induction n using ordinalLetters.induct with
  | case1 => simp [ordinalLetters]
  | case2 n h ih =>
    have hlast : ordinalStep? ((n - 1) / 26) (Char.ofNat ('A'.toNat + (n - 1) % 26)) = some n := by
      have hnext : 26 * ((n - 1) / 26) + ((n - 1) % 26 + 1) = n := by omega
      rw [ordinalStep?, letterDigit?_ofNat (Nat.mod_lt _ (by decide)), Option.bind_some]
      dsimp only
      rw [hnext, if_pos hn]
    rw [ordinalLetters_of_ne_zero h, List.foldlM_append, ih (by omega)]
    exact (congrArg (· >>= pure) hlast).trans rfl

theorem columnOfLetters?_ordinalLetters {column : Nat} (h : column < maxOrdinal) :
    columnOfLetters? (ordinalLetters (column + 1)) = some column := by
  rw [columnOfLetters?, if_neg (ordinalLetters_ne_nil (Nat.succ_ne_zero column)),
    foldlM_ordinalLetters h]
  rfl

/-- Letters name no column whose number, counted from one, takes more than 64 bits. -/
theorem lt_of_columnOfLetters? {letters : List Char} {column : Nat}
    (h : columnOfLetters? letters = some column) : column < maxOrdinal := by
  rw [columnOfLetters?] at h
  split at h
  next => cases h
  next hletters =>
    obtain ⟨ordinal, hordinal, rfl⟩ := Option.map_eq_some_iff.mp h
    obtain hnil | ⟨front, last, rfl⟩ := letters.eq_nil_or_concat
    · exact absurd hnil hletters
    · rw [List.concat_eq_append, List.foldlM_append] at hordinal
      obtain ⟨before, -, hstep⟩ := Option.bind_eq_some_iff.mp hordinal
      obtain ⟨next, hnext, hpure⟩ := Option.bind_eq_some_iff.mp hstep
      cases hpure
      obtain ⟨digit, -, hdigit⟩ := Option.bind_eq_some_iff.mp hnext
      dsimp only at hdigit
      split at hdigit
      next hle =>
        cases hdigit
        exact Nat.lt_of_le_of_lt (Nat.sub_le_sub_right hle 1) (by decide)
      next => cases hdigit

theorem splitCell?_append {letters digits : List Char} (hletters : ∀ c ∈ letters, c.isAlpha)
    (hdigits : ∀ c ∈ digits, c.isDigit) (hl : letters ≠ []) (hd : digits ≠ []) :
    splitCell? (letters ++ digits) = some (letters, digits) := by
  have hfirst : digits.dropWhile Char.isAlpha = digits ∧ digits.takeWhile Char.isAlpha = [] := by
    cases digits with
    | nil => exact ⟨rfl, rfl⟩
    | cons c rest =>
      have hc : ¬c.isAlpha := Text.not_isAlpha_of_isDigit (hdigits c List.mem_cons_self)
      exact ⟨List.dropWhile_cons_of_neg hc, List.takeWhile_cons_of_neg hc⟩
  have hall : digits.all Char.isDigit := List.all_eq_true.mpr hdigits
  rw [splitCell?, List.takeWhile_append_of_pos hletters, List.dropWhile_append_of_pos hletters,
    hfirst.1, hfirst.2, List.append_nil]
  exact if_pos ⟨hl, hd, hall⟩

theorem CellAddress.parse_toText {a : CellAddress} (hrow : a.row < maxOrdinal)
    (hcolumn : a.column < maxOrdinal) : parse a.toText = .ok a := by
  let letters := ordinalLetters (a.column + 1)
  let digits := Nat.toDigits 10 (a.row + 1)
  have htext : a.toText.toList = letters ++ digits := by
    simp [toText, columnLetters, natText, letters, digits]
  have hletters : ∀ c ∈ letters, c.isAlpha := fun c hc => isAlpha_of_mem_ordinalLetters hc
  have hdigits : ∀ c ∈ digits, c.isDigit := fun c hc =>
    Nat.isDigit_of_mem_toDigits (by decide) (by decide) hc
  have hblank : ∀ c ∈ a.toText.toList, Text.isBlank c = false := fun c hc =>
    Text.isBlank_of_isAlpha_or_isDigit ((List.mem_append.mp (htext ▸ hc)).imp (hletters c) (hdigits c))
  have htrim : Text.trim a.toText = a.toText := by
    rw [Text.trim, Text.trimmed_eq_self (fun c hc => hblank c (List.mem_of_head? hc))
      fun c hc => hblank c (List.mem_of_getLast? hc), String.ofList_toList]
  have hsplit : splitCell? a.toText.toList = some (letters, digits) :=
    htext ▸ splitCell?_append hletters hdigits (ordinalLetters_ne_nil (Nat.succ_ne_zero _))
      Nat.toDigits_ne_nil
  have hvalue : Number.digitsValue digits = a.row + 1 := Nat.ofDigitChars_ten_toDigits
  rw [parse]
  simp only [htrim, hsplit, letters, columnOfLetters?_ordinalLetters hcolumn, hvalue]
  rw [if_neg (Nat.not_lt_of_le hrow), if_neg (Nat.succ_ne_zero _), Nat.add_sub_cancel]

theorem RangeAddress.parseCorners_toText {a b : CellAddress} (hrow : b.row < maxOrdinal)
    (hcolumn : b.column < maxOrdinal) (hrows : a.row ≤ b.row) (hcolumns : a.column ≤ b.column) :
    parseCorners a.toText b.toText = .ok ⟨a, b⟩ := by
  rw [parseCorners, CellAddress.parse_toText (Nat.lt_of_le_of_lt hrows hrow)
    (Nat.lt_of_le_of_lt hcolumns hcolumn), CellAddress.parse_toText hrow hcolumn]
  simp only [bind, Except.bind, pure, Except.pure, between, Nat.min_eq_left hrows,
    Nat.max_eq_right hrows, Nat.min_eq_left hcolumns, Nat.max_eq_right hcolumns]

theorem CellAddress.column_lt_of_parse {s : String} {a : CellAddress} (h : parse s = .ok a) :
    a.column < maxOrdinal := by
  unfold parse at h
  dsimp only at h
  repeat' split at h
  next => cases h
  next => cases h
  next => cases h
  next => cases h
  next hcolumn _ _ =>
    cases h
    exact lt_of_columnOfLetters? hcolumn

theorem RangeAddress.stop_column_lt {corner opposite : String} {r : RangeAddress}
    (h : parseCorners corner opposite = .ok r) : r.stop.column < maxOrdinal := by
  obtain ⟨a, ha, h⟩ := bind_eq_ok.mp h
  obtain ⟨b, hb, h⟩ := bind_eq_ok.mp h
  cases h
  exact Nat.max_lt.mpr ⟨CellAddress.column_lt_of_parse ha, CellAddress.column_lt_of_parse hb⟩

end Tabular
