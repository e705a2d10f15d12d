import Mathlib.Data.List.Induction
import Mathlib.Data.Nat.Digits.Defs
import Mathlib.Tactic.Ring
import Tabular.Proofs.Text.Case

/-!
# All spellings of an address

Every row of letters whose number takes no more than 64 bits names one column, and is up to case the
only one that does. Rows have many spellings, by zeros in front. An address is read exactly where
letters and digits with such numbers stand, and is written again with capital letters and without
the zeros.
-/
namespace Tabular

/-- The number that digits stand for in a base, the last of them counting once. -/
def positional (base : Nat) (digit : Char → Nat) (cs : List Char) : Nat :=
  Nat.ofDigits base (cs.reverse.map digit)

theorem positional_append (base : Nat) (digit : Char → Nat) (cs : List Char) (c : Char) :
    positional base digit (cs ++ [c]) = base * positional base digit cs + digit c := by
  rw [positional, List.reverse_append, List.reverse_singleton, List.singleton_append, List.map_cons,
    Nat.ofDigits_cons, Nat.add_comm]
  rfl

/-- The number of letters in base 26, where A is 1 and Z is 26. -/
def letterNumber (letters : List Char) : Nat :=
  positional 26 (fun c => c.toUpper.toNat - 'A'.toNat + 1) letters

def digitNumber (digits : List Char) : Nat := positional 10 (fun c => c.toNat - '0'.toNat) digits

theorem digitsValue_eq (digits : List Char) : Number.digitsValue digits = digitNumber digits := by
  induction digits using List.reverseRecOn with
  | nil => rfl
  | append_singleton front c ih =>
    rw [digitNumber, positional_append, ← digitNumber, ← ih, Number.digitsValue, List.foldl_append]
    rfl

/-- The digits of a number are those that it was read from, without the zeros in front. -/
theorem dropWhile_zero_eq {digits : List Char} (h : ∀ c ∈ digits, c.isDigit) :
    digits.dropWhile (· = '0') =
      if digitNumber digits = 0 then [] else Nat.toDigits 10 (digitNumber digits) := by
  induction digits using List.reverseRecOn with
  | nil => rfl
  | append_singleton front c ih =>
    have hc := Text.isDigit_iff.mp (h c (by simp))
    have hfront := ih fun d hd => h d (by simp [hd])
    have hdigit : Nat.digitChar (c.toNat - 48) = c := by
      apply Char.toNat_inj.mp
      rw [Nat.toNat_digitChar_of_lt_ten (by omega)]
      omega
    have hzero : c = '0' ↔ c.toNat - 48 = 0 := by
      rw [← Nat.digitChar_eq_zero, hdigit]
    have hvalue : digitNumber (front ++ [c]) = 10 * digitNumber front + (c.toNat - 48) :=
      positional_append ..
    rw [List.dropWhile_append, hfront]
    by_cases hnone : digitNumber front = 0
    · have hsame : digitNumber (front ++ [c]) = c.toNat - 48 := by omega
      rw [if_pos hnone, List.isEmpty_nil, if_pos rfl, hsame, Nat.toDigits_of_lt_base (by omega), hdigit]
      by_cases hlast : c = '0'
      · rw [if_pos (hzero.mp hlast), hlast]
        rfl
      · rw [if_neg (mt hzero.mpr hlast), List.dropWhile_cons_of_neg (by simpa using hlast)]
    · have hwhole : digitNumber (front ++ [c]) ≠ 0 := by omega
      have hdigits : Nat.toDigits 10 (digitNumber (front ++ [c])) =
          Nat.toDigits 10 (digitNumber front) ++ [c] := by
        have hdiv : digitNumber (front ++ [c]) / 10 = digitNumber front := by omega
        have hmod : digitNumber (front ++ [c]) % 10 = c.toNat - 48 := by omega
        rw [Nat.toDigits_of_base_le (by decide) (by omega), hdiv, hmod, hdigit]
      rw [if_neg hnone, hdigits, if_neg hwhole, if_neg]
      exact mt List.isEmpty_iff.mp Nat.toDigits_ne_nil

section
variable {letters : List Char} (hletters : ∀ c ∈ letters, c.isAlpha)
include hletters

/-- Letters are read up to the greatest number that a column can have. -/
theorem foldlM_ordinalStep? : letters.foldlM ordinalStep? 0 =
    if letterNumber letters ≤ maxOrdinal then some (letterNumber letters) else none := by
  induction letters using List.reverseRecOn with
  | nil => rfl
  | append_singleton front c ih =>
    have hfront := ih fun d hd => hletters d (by simp [hd])
    have hc : c.isAlpha := hletters c (by simp)
    have happend : letterNumber (front ++ [c]) =
        26 * letterNumber front + (c.toUpper.toNat - 'A'.toNat + 1) := positional_append ..
    rw [List.foldlM_append, hfront, happend]
    by_cases hle : letterNumber front ≤ maxOrdinal
    · rw [if_pos hle]
      simp [ordinalStep?, letterDigit?, hc]
    · -- what does not fit in front fits even less with a letter behind it
      rw [if_neg hle, if_neg (by omega)]
      rfl

/-- The letters of a number are the capitals that it was read from. -/
theorem ordinalLetters_letterNumber :
    ordinalLetters (letterNumber letters) = letters.map Char.toUpper := by
  induction letters using List.reverseRecOn with
  | nil => rw [letterNumber, positional, ordinalLetters]; rfl
  | append_singleton front c ih =>
    have hupper : 65 ≤ c.toUpper.toNat ∧ c.toUpper.toNat ≤ 90 :=
      Text.toNat_toUpper_of_isAlpha (hletters c (by simp))
    have happend : letterNumber (front ++ [c]) =
        26 * letterNumber front + (c.toUpper.toNat - 65 + 1) := positional_append ..
    have hdiv : (letterNumber (front ++ [c]) - 1) / 26 = letterNumber front := by omega
    have hmod : 65 + (letterNumber (front ++ [c]) - 1) % 26 = c.toUpper.toNat := by omega
    rw [ordinalLetters_of_ne_zero (by omega), hdiv, ih fun d hd => hletters d (by simp [hd])]
    change _ ++ [Char.ofNat (65 + _)] = _
    rw [hmod, Char.ofNat_toNat, List.map_append, List.map_singleton]

theorem letterNumber_ne_zero (hne : letters ≠ []) : letterNumber letters ≠ 0 := by
  intro hzero
  have hupper := ordinalLetters_letterNumber hletters
  rw [hzero, ordinalLetters, if_pos rfl] at hupper
  exact hne (List.map_eq_nil_iff.mp hupper.symm)

theorem columnOfLetters?_eq (hne : letters ≠ []) : columnOfLetters? letters =
    if letterNumber letters ≤ maxOrdinal then some (letterNumber letters - 1) else none := by
  rw [columnOfLetters?, if_neg hne, foldlM_ordinalStep? hletters]
  split <;> rfl

end
theorem splitCell?_eq_some_iff {cs letters digits : List Char} :
    splitCell? cs = some (letters, digits) ↔ cs = letters ++ digits ∧
      (letters ≠ [] ∧ ∀ c ∈ letters, c.isAlpha) ∧ digits ≠ [] ∧ ∀ c ∈ digits, c.isDigit := by
  constructor
  · intro h
    unfold splitCell? at h
    dsimp only at h
    split at h
    next hshape =>
      cases h
      refine ⟨List.takeWhile_append_dropWhile.symm, ⟨hshape.1, ?_⟩, hshape.2.1, ?_⟩
      · exact fun c hc => List.mem_takeWhile_imp hc
      · exact List.all_eq_true.mp hshape.2.2
    next => cases h
  · rintro ⟨hcs, ⟨hl, hletters⟩, hd, hdigits⟩
    rw [hcs]
    exact splitCell?_append hletters hdigits hl hd

/-- Letters and digits that together name a cell: the column of the letters and the row of the digits
have numbers of 64 bits, and the row is none before the first. -/
structure NamesCell (letters digits : List Char) : Prop where
  isLetters : letters ≠ [] ∧ ∀ c ∈ letters, c.isAlpha
  isDigits : digits ≠ [] ∧ ∀ c ∈ digits, c.isDigit
  column : letterNumber letters ≤ maxOrdinal
  row : 1 ≤ digitNumber digits ∧ digitNumber digits ≤ maxOrdinal

namespace CellAddress

def named (letters digits : List Char) : CellAddress :=
  ⟨digitNumber digits - 1, letterNumber letters - 1⟩

variable {s : String} {a : CellAddress} {letters digits : List Char}

theorem parse_of_splitCell? (h : splitCell? (Text.trim s).toList = some (letters, digits)) :
    parse s = .ok a ↔ NamesCell letters digits ∧ a = named letters digits := by
  obtain ⟨-, hletters, hdigits⟩ := splitCell?_eq_some_iff.mp h
  rw [parse]
  simp only [h, columnOfLetters?_eq hletters.2 hletters.1, digitsValue_eq]
  by_cases hcolumn : letterNumber letters ≤ maxOrdinal
  · rw [if_pos hcolumn]
    dsimp only
    by_cases hlarge : maxOrdinal < digitNumber digits
    · rw [if_pos hlarge]
      constructor
      · intro hok
        cases hok
      · intro hnames
        exact absurd hnames.1.row.2 (by omega)
    · by_cases hzero : digitNumber digits = 0
      · rw [if_neg hlarge, if_pos hzero]
        constructor
        · intro hok
          cases hok
        · intro hnames
          exact absurd hnames.1.row.1 (by omega)
      · rw [if_neg hlarge, if_neg hzero]
        constructor
        · intro hok
          cases hok
          exact ⟨⟨hletters, hdigits, hcolumn, by omega, by omega⟩, rfl⟩
        · intro hnames
          rw [hnames.2, named]
  · rw [if_neg hcolumn]
    constructor
    · intro hok
      cases hok
    · intro hnames
      exact absurd hnames.1.column hcolumn

/-- An address is read exactly from letters and digits that name it. -/
theorem parse_eq_ok_iff : parse s = .ok a ↔ ∃ letters digits,
    (Text.trim s).toList = letters ++ digits ∧ NamesCell letters digits ∧
      a = named letters digits := by
  constructor
  · intro h
    cases hsplit : splitCell? (Text.trim s).toList with
    | none =>
      rw [parse] at h
      simp only [hsplit] at h
      cases h
    | some cell =>
      have htext := (splitCell?_eq_some_iff.mp hsplit).1
      exact ⟨cell.1, cell.2, htext, (parse_of_splitCell? hsplit).mp h⟩
  · rintro ⟨letters, digits, htext, hnames, ha⟩
    have hsplit := splitCell?_eq_some_iff.mpr ⟨htext, hnames.isLetters, hnames.isDigits⟩
    exact (parse_of_splitCell? hsplit).mpr ⟨hnames, ha⟩

/-- A cell is written with capitals and without zeros in front of its row. -/
theorem toText_named (h : NamesCell letters digits) : (named letters digits).toText =
    String.ofList (letters.map Char.toUpper ++ digits.dropWhile (· = '0')) := by
  have hcolumn := letterNumber_ne_zero h.isLetters.2 h.isLetters.1
  have hrow := h.row.1
  have hl : letterNumber letters - 1 + 1 = letterNumber letters := by omega
  have hd : digitNumber digits - 1 + 1 = digitNumber digits := by omega
  rw [toText, named, columnLetters, natText, hl, hd, ordinalLetters_letterNumber h.isLetters.2,
    dropWhile_zero_eq h.isDigits.2, if_neg (by omega), String.ofList_append]

theorem named_lt (h : NamesCell letters digits) :
    (named letters digits).row < maxOrdinal ∧ (named letters digits).column < maxOrdinal := by
  have hcolumn := letterNumber_ne_zero h.isLetters.2 h.isLetters.1
  have hfits := h.column
  have hrow := h.row
  constructor
  · change digitNumber digits - 1 < maxOrdinal
    omega
  · change letterNumber letters - 1 < maxOrdinal
    omega

theorem spelling_of_parse {s : String} {a : CellAddress} (h : parse s = .ok a) :
    a.row < maxOrdinal ∧ a.column < maxOrdinal ∧
      ∃ letters digits, (Text.trim s).toList = letters ++ digits ∧ NamesCell letters digits ∧
        a.toText = String.ofList (letters.map Char.toUpper ++ digits.dropWhile (· = '0')) := by
  obtain ⟨letters, digits, htext, hnames, rfl⟩ := parse_eq_ok_iff.mp h
  obtain ⟨hrow, hcolumn⟩ := named_lt hnames
  exact ⟨hrow, hcolumn, letters, digits, htext, hnames, toText_named hnames⟩

theorem exists_parse_iff {s : String} : (∃ a, parse s = .ok a) ↔
    ∃ letters digits, (Text.trim s).toList = letters ++ digits ∧ NamesCell letters digits := by
  constructor
  · rintro ⟨a, h⟩
    obtain ⟨letters, digits, htext, hnames, -⟩ := parse_eq_ok_iff.mp h
    exact ⟨letters, digits, htext, hnames⟩
  · rintro ⟨letters, digits, htext, hnames⟩
    exact ⟨_, parse_eq_ok_iff.mpr ⟨letters, digits, htext, hnames, rfl⟩⟩

end CellAddress

theorem toList_columnLetters (column : Nat) :
    (columnLetters column).toList = ordinalLetters (column + 1) := String.toList_ofList

theorem columnLetters_ne_empty (column : Nat) : columnLetters column ≠ "" := by
  intro hempty
  have htext := toList_columnLetters column
  rw [hempty] at htext
  exact ordinalLetters_ne_nil (Nat.succ_ne_zero column) htext.symm

theorem columnOfLetters?_eq_none_iff {letters : String} (hletters : ∀ c ∈ letters.toList, c.isAlpha) :
    columnOfLetters? letters.toList = none ↔
      letters = "" ∨ maxOrdinal < letterNumber letters.toList := by
  by_cases hempty : letters = ""
  · rw [hempty]
    exact iff_of_true rfl (.inl rfl)
  · rw [columnOfLetters?_eq hletters (mt String.toList_eq_nil_iff.mp hempty)]
    split
    next hfits => exact iff_of_false (Option.some_ne_none _) fun hlarge => hlarge.elim hempty (by omega)
    next hfits => exact iff_of_true rfl (.inr (by omega))

/-- The letters that name a column are those of the column, up to case. -/
theorem columnLetters_of_columnOfLetters? {letters : String} (hletters : ∀ c ∈ letters.toList, c.isAlpha)
    {column : Nat} (h : columnOfLetters? letters.toList = some column) :
    columnLetters column = Text.upper letters := by
  by_cases hempty : letters = ""
  · rw [hempty] at h
    cases h
  · have hne : letters.toList ≠ [] := mt String.toList_eq_nil_iff.mp hempty
    have hzero := letterNumber_ne_zero hletters hne
    rw [columnOfLetters?_eq hletters hne] at h
    split at h
    · cases h
      rw [columnLetters, Nat.sub_add_cancel (by omega), ordinalLetters_letterNumber hletters]
      rfl
    · cases h

/-- Columns, letters and addresses determine each other. Every column that has a number is read back
from its capitals; letters name a column unless there are none of them or their number takes more than
64 bits, and are up to case those of the column. Every cell is read back from its address. A text is an
address exactly if it is, up to blanks around it, letters and digits that name a cell, and that cell is
written with capitals and without zeros in front of its row. -/
theorem addresses_exact :
    (∀ column < maxOrdinal, columnLetters column ≠ "" ∧
      (∀ c ∈ (columnLetters column).toList, c.isUpper) ∧
      columnOfLetters? (columnLetters column).toList = some column) ∧
    (∀ letters : String, (∀ c ∈ letters.toList, c.isAlpha) →
      (columnOfLetters? letters.toList = none ↔
        letters = "" ∨ maxOrdinal < letterNumber letters.toList) ∧
      ∀ column, columnOfLetters? letters.toList = some column →
        columnLetters column = Text.upper letters) ∧
    (∀ a : CellAddress, a.row < maxOrdinal → a.column < maxOrdinal →
      CellAddress.parse a.toText = .ok a) ∧
    (∀ s a, CellAddress.parse s = .ok a → a.row < maxOrdinal ∧ a.column < maxOrdinal ∧
      ∃ letters digits, (Text.trim s).toList = letters ++ digits ∧ NamesCell letters digits ∧
        a.toText = String.ofList (letters.map Char.toUpper ++ digits.dropWhile (· = '0'))) ∧
    (∀ s, (∃ a, CellAddress.parse s = .ok a) ↔
      ∃ letters digits, (Text.trim s).toList = letters ++ digits ∧ NamesCell letters digits) := by
  refine ⟨?columns, ?letters, ?cells, ?read, ?texts⟩
  case columns =>
    intro column hcolumn
    rw [toList_columnLetters]
    exact ⟨columnLetters_ne_empty column, fun _ => isUpper_of_mem_ordinalLetters,
      columnOfLetters?_ordinalLetters hcolumn⟩
  case letters =>
    intro letters hletters
    exact ⟨columnOfLetters?_eq_none_iff hletters, fun _ => columnLetters_of_columnOfLetters? hletters⟩
  case cells => exact fun _ hrow hcolumn => CellAddress.parse_toText hrow hcolumn
  case read => exact fun _ _ => CellAddress.spelling_of_parse
  case texts => exact fun _ => CellAddress.exists_parse_iff

/-- The last column and the last row that have numbers, and a column right behind. -/
theorem addresses_exact_last :
    columnOfLetters? (columnLetters (maxOrdinal - 1)).toList = some (maxOrdinal - 1) ∧
    columnOfLetters? "gkgwbylwrxtlpp".toList = none ∧
    ∃ a, CellAddress.parse " gkgwbylwrxtlpo0018446744073709551615\t" = .ok a ∧
      CellAddress.parse a.toText = .ok a := by
  have hbehind : letterNumber "gkgwbylwrxtlpp".toList = maxOrdinal + 1 := by decide +kernel
  have hcolumn : letterNumber "gkgwbylwrxtlpo".toList = maxOrdinal := by decide +kernel
  have hrow : digitNumber "0018446744073709551615".toList = maxOrdinal := by decide +kernel
  have hnamed : NamesCell "gkgwbylwrxtlpo".toList "0018446744073709551615".toList := by
    refine ⟨⟨nofun, ?_⟩, ⟨nofun, ?_⟩, hcolumn.le, ?_, hrow.le⟩
    · exact List.all_eq_true.mp rfl
    · exact List.all_eq_true.mp rfl
    · rw [hrow]
      decide
  obtain ⟨hcolumns, hletters, hcells, hread, htexts⟩ := addresses_exact
  refine ⟨(hcolumns _ (by decide)).2.2, ?_, ?_⟩
  · exact (hletters "gkgwbylwrxtlpp" (List.all_eq_true.mp rfl)).1.mpr (.inr (by omega))
  · obtain ⟨a, ha⟩ := (htexts " gkgwbylwrxtlpo0018446744073709551615\t").mpr
      ⟨_, _, by rfl, hnamed⟩
    obtain ⟨hrow, hcolumn, -⟩ := hread _ a ha
    exact ⟨a, ha, hcells a hrow hcolumn⟩

end Tabular
