import Mathlib.Data.List.TakeWhile
import Tabular.Proofs.Address
import Tabular.Text.Letter

/-!
# Letter case

Only ASCII letters have a case. What a text means does not depend on it where all letters count
alike, as in telling blanks, digits and names apart, and where both cases are allowed for, as in the
exponents of decimals and the columns of addresses.
-/
namespace Tabular

namespace Text

theorem toNat_toLower (c : Char) :
    c.toLower.toNat = if 65 ≤ c.toNat ∧ c.toNat ≤ 90 then c.toNat + 32 else c.toNat := by
  by_cases h : 65 ≤ c.toNat ∧ c.toNat ≤ 90
  · have hlower : c.toLower.val = c.val + ('a'.val - 'A'.val) := by
      delta Char.toLower
      rw [dif_pos (show c.val ≥ 'A'.val ∧ c.val ≤ 'Z'.val from h)]
    rw [if_pos h, ← Char.toNat_val, hlower, UInt32.toNat_add, Char.toNat_val,
      show ('a'.val - 'A'.val).toNat = 32 from rfl]
    omega
  · rw [if_neg h]
    exact congrArg Char.toNat (dif_neg h)

theorem toNat_toUpper (c : Char) :
    c.toUpper.toNat = if 97 ≤ c.toNat ∧ c.toNat ≤ 122 then c.toNat - 32 else c.toNat := by
  by_cases h : 97 ≤ c.toNat ∧ c.toNat ≤ 122
  · have hupper : c.toUpper.val = c.val + ('A'.val - 'a'.val) := by
      delta Char.toUpper
      rw [dif_pos (show 'a'.val ≤ c.val ∧ c.val ≤ 'z'.val from h)]
    rw [if_pos h, ← Char.toNat_val, hupper, UInt32.toNat_add, Char.toNat_val,
      show ('A'.val - 'a'.val).toNat = 4294967264 from rfl]
    omega
  · rw [if_neg h]
    exact congrArg Char.toNat (dif_neg h)

theorem isAlpha_toLower (c : Char) : c.toLower.isAlpha = c.isAlpha := by
  rw [Bool.eq_iff_iff, isAlpha_iff, isAlpha_iff, toNat_toLower]
  split <;> omega

theorem toLower_of_not_isUpper {c : Char} (h : ¬(65 ≤ c.toNat ∧ c.toNat ≤ 90)) : c.toLower = c := by
  rw [← Char.toNat_inj, toNat_toLower, if_neg h]

theorem toLower_of_not_isAlpha {c : Char} (h : ¬c.isAlpha) : c.toLower = c :=
  toLower_of_not_isUpper fun hupper => h (isAlpha_iff.mpr (.inl hupper))

theorem toLower_toLower (c : Char) : c.toLower.toLower = c.toLower := by
  rw [← Char.toNat_inj, toNat_toLower c.toLower, toNat_toLower]
  grind

theorem toUpper_toLower (c : Char) : c.toLower.toUpper = c.toUpper := by
  rw [← Char.toNat_inj, toNat_toUpper, toNat_toUpper, toNat_toLower]
  grind

theorem toNat_toUpper_of_isAlpha {c : Char} (h : c.isAlpha) :
    65 ≤ c.toUpper.toNat ∧ c.toUpper.toNat ≤ 90 := by
  rw [isAlpha_iff] at h
  rw [toNat_toUpper]
  split <;> omega

theorem toLower_eq_iff {c d : Char} (hd : ¬d.isAlpha) : c.toLower = d ↔ c = d := by
  constructor
  · intro h
    have hc : ¬c.isAlpha := by rwa [← isAlpha_toLower, h]
    rwa [toLower_of_not_isAlpha hc] at h
  · rintro rfl
    exact toLower_of_not_isAlpha hd

/-- A class of characters that holds all letters or none of them does not depend on their case. -/
theorem apply_toLower {p : Char → Bool} {b : Bool} (h : ∀ c : Char, c.isAlpha → p c = b) (c : Char) :
    p c.toLower = p c := by
  by_cases hc : c.isAlpha
  · rw [h c hc, h c.toLower (by rwa [isAlpha_toLower])]
  · rw [toLower_of_not_isAlpha hc]

theorem isDigit_toLower (c : Char) : c.toLower.isDigit = c.isDigit := by
  refine apply_toLower (b := false) (fun c hc => ?_) c
  exact Bool.eq_false_iff.mpr fun hdigit => not_isAlpha_of_isDigit hdigit hc

theorem isBlank_toLower (c : Char) : isBlank c.toLower = isBlank c :=
  apply_toLower (fun _ hc => isBlank_of_isAlpha_or_isDigit (.inl hc)) c

theorem isLetter_of_isAlpha {c : Char} (h : c.isAlpha) : isLetter c = true := by
  refine inRanges_iff.mpr ?_
  obtain h | h := isAlpha_iff.mp h
  · exact ⟨_, .head _, h⟩
  · exact ⟨_, .tail _ (.head _), h⟩

theorem map_toLower_of_digits {cs : List Char} (h : ∀ c ∈ cs, c.isDigit) : cs.map Char.toLower = cs := by
  induction cs with
  | nil => rfl
  | cons c cs ih =>
    obtain ⟨hc, hcs⟩ := List.forall_mem_cons.mp h
    rw [List.map_cons, ih hcs, toLower_of_not_isAlpha (not_isAlpha_of_isDigit hc)]

theorem takeWhile_isDigit_toLower (cs : List Char) :
    (cs.map Char.toLower).takeWhile Char.isDigit = cs.takeWhile Char.isDigit := by
  have hdigit : Char.isDigit ∘ Char.toLower = Char.isDigit := funext isDigit_toLower
  rw [List.takeWhile_map, hdigit]
  exact map_toLower_of_digits fun c hc => List.mem_takeWhile_imp hc

theorem dropWhile_isDigit_toLower (cs : List Char) :
    (cs.map Char.toLower).dropWhile Char.isDigit = (cs.dropWhile Char.isDigit).map Char.toLower := by
  have hdigit : Char.isDigit ∘ Char.toLower = Char.isDigit := funext isDigit_toLower
  rw [List.dropWhile_map, hdigit]

theorem all_isDigit_toLower (cs : List Char) :
    (cs.map Char.toLower).all Char.isDigit = cs.all Char.isDigit := by
  rw [List.all_map]
  exact congrArg cs.all (funext isDigit_toLower)

theorem sameUpToCase_iff {s t : String} :
    sameUpToCase s t ↔ s.toList.map Char.toLower = t.toList.map Char.toLower := by
  rw [sameUpToCase, beq_iff_eq]

theorem toList_lower (s : String) : (lower s).toList = s.toList.map Char.toLower := by
  rw [lower, String.toList_ofList]

theorem lower_eq_iff {s t : String} : lower s = lower t ↔ sameUpToCase s t := by
  rw [sameUpToCase_iff, ← String.toList_inj, toList_lower, toList_lower]

theorem map_toLower_lower (s : String) :
    (lower s).toList.map Char.toLower = s.toList.map Char.toLower := by
  rw [toList_lower, List.map_map]
  exact List.map_congr_left fun c _ => toLower_toLower c

theorem sameUpToCase_lower (s : String) : sameUpToCase (lower s) s :=
  sameUpToCase_iff.mpr (map_toLower_lower s)

theorem sameUpToCase_lower_right (s t : String) : sameUpToCase s (lower t) = sameUpToCase s t := by
  rw [sameUpToCase, sameUpToCase, map_toLower_lower]

theorem trimmed_toLower (cs : List Char) :
    trimmed (cs.map Char.toLower) = (trimmed cs).map Char.toLower := by
  have hblank : isBlank ∘ Char.toLower = isBlank := funext isBlank_toLower
  simp only [trimmed, trimEnd, trimStart, List.dropWhile_map, ← List.map_reverse, hblank]

end Text

namespace Number

open Text

theorem digitsValue_toLower {cs : List Char} (h : cs.all Char.isDigit) :
    digitsValue (cs.map Char.toLower) = digitsValue cs := by
  rw [map_toLower_of_digits (List.all_eq_true.mp h)]

theorem readExponent?_toLower (cs : List Char) : readExponent? (cs.map Char.toLower) = readExponent? cs := by
  have hdigits (negative : Bool) (ds : List Char) :
      (if ds.map Char.toLower ≠ [] ∧ (ds.map Char.toLower).all Char.isDigit then
        some (if negative then -(digitsValue (ds.map Char.toLower) : Int)
          else digitsValue (ds.map Char.toLower))
      else none) =
      if ds ≠ [] ∧ ds.all Char.isDigit then
        some (if negative then -(digitsValue ds : Int) else digitsValue ds)
      else none := by
    have hnil : ds.map Char.toLower = [] ↔ ds = [] := List.map_eq_nil_iff
    refine ite_congr (by rw [all_isDigit_toLower, ne_eq, hnil]) (fun h => ?_) fun _ => rfl
    rw [digitsValue_toLower h.2]
  cases cs with
  | nil => rfl
  | cons c cs =>
    by_cases hminus : c = '-'
    · subst hminus
      exact hdigits true cs
    by_cases hplus : c = '+'
    · subst hplus
      exact hdigits false cs
    have hminus' : c.toLower ≠ '-' := mt (toLower_eq_iff (by decide)).mp hminus
    have hplus' : c.toLower ≠ '+' := mt (toLower_eq_iff (by decide)).mp hplus
    have h := hdigits false (c :: cs)
    simpa [readExponent?, hminus, hplus, hminus', hplus'] using h

/-- An exponent is marked by a letter of either case. -/
theorem isMark_toLower (c : Char) : (c.toLower = 'e' ∨ c.toLower = 'E') ↔ (c = 'e' ∨ c = 'E') := by
  have hletters : ∀ d ∈ List.range 26,
      ((Char.ofNat (65 + d)).toLower = 'e' ∨ (Char.ofNat (65 + d)).toLower = 'E') ↔
        (Char.ofNat (65 + d) = 'e' ∨ Char.ofNat (65 + d) = 'E') := by decide
  by_cases hc : 65 ≤ c.toNat ∧ c.toNat ≤ 90
  · have h := hletters (c.toNat - 65) (List.mem_range.mpr (by omega))
    rwa [Nat.add_sub_cancel' hc.1, Char.ofNat_toNat] at h
  · rw [toLower_of_not_isUpper hc]

def afterPoint : List Char → List Char × List Char
  | '.' :: cs => (cs.takeWhile Char.isDigit, cs.dropWhile Char.isDigit)
  | cs => ([], cs)

/-- The exponent that ends a decimal, if nothing else stands there. -/
def finalExponent? : List Char → Option Int
  | [] => some 0
  | c :: cs => if c = 'e' ∨ c = 'E' then readExponent? cs else none

theorem readUnsigned?_eq (cs : List Char) :
    readUnsigned? cs =
      let whole := cs.takeWhile Char.isDigit
      let fraction := (afterPoint (cs.dropWhile Char.isDigit)).1
      if whole ++ fraction = [] then none
      else (finalExponent? (afterPoint (cs.dropWhile Char.isDigit)).2).map fun exponent =>
        ⟨digitsValue (whole ++ fraction), exponent - fraction.length⟩ :=
  rfl

theorem afterPoint_toLower (cs : List Char) :
    afterPoint (cs.map Char.toLower) = ((afterPoint cs).1, (afterPoint cs).2.map Char.toLower) := by
  cases cs with
  | nil => rfl
  | cons c cs =>
    by_cases hpoint : c = '.'
    · subst hpoint
      exact Prod.ext (takeWhile_isDigit_toLower cs) (dropWhile_isDigit_toLower cs)
    · have hpoint' : c.toLower ≠ '.' := mt (toLower_eq_iff (by decide)).mp hpoint
      simp [afterPoint, hpoint, hpoint']

theorem finalExponent?_toLower (cs : List Char) :
    finalExponent? (cs.map Char.toLower) = finalExponent? cs := by
  cases cs with
  | nil => rfl
  | cons c cs => simp only [List.map_cons, finalExponent?, isMark_toLower, readExponent?_toLower]

theorem readUnsigned?_toLower (cs : List Char) : readUnsigned? (cs.map Char.toLower) = readUnsigned? cs := by
  rw [readUnsigned?_eq, readUnsigned?_eq, takeWhile_isDigit_toLower, dropWhile_isDigit_toLower,
    afterPoint_toLower, finalExponent?_toLower]

theorem parseUnsigned?_toLower (cs : List Char) :
    parseUnsigned? (cs.map Char.toLower) = parseUnsigned? cs := by
  rw [parseUnsigned?, parseUnsigned?, readUnsigned?_toLower]

theorem parse?_toLower (cs : List Char) : parse? (cs.map Char.toLower) = parse? cs := by
  cases cs with
  | nil => rfl
  | cons c cs =>
    by_cases hminus : c = '-'
    · subst hminus
      exact congrArg (Option.map (- ·)) (parseUnsigned?_toLower cs)
    by_cases hplus : c = '+'
    · subst hplus
      exact parseUnsigned?_toLower cs
    have hminus' : c.toLower ≠ '-' := mt (toLower_eq_iff (by decide)).mp hminus
    have hplus' : c.toLower ≠ '+' := mt (toLower_eq_iff (by decide)).mp hplus
    have h := parseUnsigned?_toLower (c :: cs)
    simpa [parse?, hminus, hplus, hminus', hplus'] using h

end Number

open Text

theorem splitCell?_toLower (cs : List Char) :
    splitCell? (cs.map Char.toLower) = (splitCell? cs).map fun cell => (cell.1.map Char.toLower, cell.2) := by
  have halpha : Char.isAlpha ∘ Char.toLower = Char.isAlpha := funext isAlpha_toLower
  simp only [splitCell?, List.takeWhile_map, List.dropWhile_map, halpha, all_isDigit_toLower, ne_eq,
    List.map_eq_nil_iff]
  split
  next h => rw [Option.map_some, map_toLower_of_digits (List.all_eq_true.mp h.2.2)]
  next => rw [Option.map_none]

theorem columnOfLetters?_toLower (letters : List Char) :
    columnOfLetters? (letters.map Char.toLower) = columnOfLetters? letters := by
  have hstep (n : Nat) (c : Char) : ordinalStep? n c.toLower = ordinalStep? n c := by
    rw [ordinalStep?, ordinalStep?, letterDigit?, letterDigit?, isAlpha_toLower,
      toUpper_toLower]
  simp only [columnOfLetters?, List.map_eq_nil_iff, List.foldlM_map, hstep]

theorem splitCell?_congr {s t : String} (h : sameUpToCase s t) :
    (splitCell? s.toList).map (fun cell => (cell.1.map Char.toLower, cell.2)) =
      (splitCell? t.toList).map fun cell => (cell.1.map Char.toLower, cell.2) := by
  rw [← splitCell?_toLower, ← splitCell?_toLower, sameUpToCase_iff.mp h]

theorem looksLikeCell_congr {s t : String} (h : sameUpToCase s t) :
    looksLikeCell s = looksLikeCell t := by
  rw [looksLikeCell, looksLikeCell, ← Option.isSome_map, splitCell?_congr h, Option.isSome_map]

theorem sameUpToCase_trim {s t : String} (h : sameUpToCase s t) : sameUpToCase (trim s) (trim t) := by
  rw [sameUpToCase_iff] at h ⊢
  rw [trim, trim, String.toList_ofList, String.toList_ofList, ← trimmed_toLower, ← trimmed_toLower, h]

/-- Addresses that differ in case name one cell, or neither of them names any. -/
theorem CellAddress.parse_congr {s t : String} (h : sameUpToCase s t) :
    (parse s).toOption = (parse t).toOption := by
  have hcells := splitCell?_congr (sameUpToCase_trim h)
  unfold parse
  dsimp only
  cases hs : splitCell? (trim s).toList with
  | none =>
    rw [hs, Option.map_none] at hcells
    rw [Option.map_eq_none_iff.mp hcells.symm]
    rfl
  | some cell =>
    obtain ⟨letters, digits⟩ := cell
    rw [hs, Option.map_some] at hcells
    obtain ⟨⟨letters', digits'⟩, ht, hcell⟩ := Option.map_eq_some_iff.mp hcells.symm
    obtain ⟨hletters, rfl⟩ := Prod.mk.inj hcell
    rw [ht]
    dsimp only
    rw [← columnOfLetters?_toLower letters, ← hletters, columnOfLetters?_toLower]
    cases columnOfLetters? letters' with
    | none => rfl
    | some column =>
      dsimp only
      split
      · rfl
      split
      · rfl
      · rfl

end Tabular
