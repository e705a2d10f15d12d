import Tabular.Document.Reader
import Tabular.Document.Writer

/-!
# Reading written texts

Each character of a text is read back from its written form, so that the text is read back up to
its closing quote.
-/
namespace Tabular.Document

theorem hexDigit?_digitChar : ∀ n < 16, hexDigit? (Nat.digitChar n) = some n := by
  decide

/-- A control character is read from the digits of its code. -/
theorem readEscape?_code {c : Char} (hc : c.toNat < 0x20) (rest : List Char) :
    readEscape? ('u' :: '0' :: '0' :: Nat.digitChar (c.toNat / 16) ::
      Nat.digitChar (c.toNat % 16) :: rest) = some (c, rest) := by
  have hzero : hexDigit? '0' = some 0 := rfl
  have hhigh := hexDigit?_digitChar (c.toNat / 16) (by omega)
  have hlow := hexDigit?_digitChar (c.toNat % 16) (by omega)
  have hcode : ((0 * 16 + 0) * 16 + c.toNat / 16) * 16 + c.toNat % 16 = c.toNat := by omega
  rw [readEscape?, readCode?, readUnit?, hzero, hhigh, hlow]
  simp only [Option.bind_eq_bind, Option.bind_some, hcode]
  rw [if_neg (by omega), if_neg (by omega), Char.ofNat_toNat]

theorem readText_quote (rest : List Char) : readText ('"' :: rest) = some ([], rest) := by
  rw [readText, if_pos rfl]

theorem readText_backslash {cs rest : List Char} {c : Char} (h : readEscape? cs = some (c, rest)) :
    readText ('\\' :: cs) = (readText rest).map fun (s, rest) => (c :: s, rest) := by
  rw [readText, if_neg (by decide), if_pos rfl]
  split
  next hnone => rw [h] at hnone; cases hnone
  next hsome =>
    rw [h] at hsome
    cases hsome
    rfl

theorem readText_plain {c : Char} (hquote : c ≠ '"') (hbackslash : c ≠ '\\') (hcontrol : ¬c.toNat < 0x20)
    (rest : List Char) :
    readText (c :: rest) = (readText rest).map fun (s, rest) => (c :: s, rest) := by
  rw [readText, if_neg hquote, if_neg hbackslash, if_neg hcontrol]

theorem readText_escape (c : Char) (rest : List Char) :
    readText (escape c ++ rest) = (readText rest).map fun (s, rest) => (c :: s, rest) := by
  unfold escape
  split
  iterate 7 exact readText_backslash rfl
  next hquote hbackslash _ _ _ _ _ =>
    split
    next hcontrol => exact readText_backslash (readEscape?_code hcontrol rest)
    next hcontrol => exact readText_plain hquote hbackslash hcontrol rest

/-- A text is read back from its written form. -/
theorem readText_flatMap_escape (cs rest : List Char) :
    readText (cs.flatMap escape ++ '"' :: rest) = some (cs, rest) := by
  induction cs with
  | nil => exact readText_quote rest
  | cons c cs ih =>
    rw [List.flatMap_cons, List.append_assoc, readText_escape, ih]
    rfl

end Tabular.Document
