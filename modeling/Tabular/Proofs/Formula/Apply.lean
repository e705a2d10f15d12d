import Tabular.Formula.Apply
import Tabular.Proofs.Table.Write

/-!
# Writing formulas into tables

A formula is refused for its target or for what it says, and the target is looked at first. If it is
not refused, its value in the table as it was is written into the target, and a table that fits a
worksheet still does.
-/
namespace Tabular

open Formula

namespace Table

variable {t : Table} {formula target : String} {a : CellAddress}

theorem applyFormula_of_noAddress {fault : AddressFault} (h : CellAddress.parse target = .error fault) :
    t.applyFormula formula target = .error (.reference fault) := by
  rw [applyFormula, h]
  rfl

theorem applyFormula_of_outside (h : CellAddress.parse target = .ok a)
    (hout : maxSheetRows - 1 ≤ a.row ∨ maxSheetColumns ≤ a.column) :
    t.applyFormula formula target =
      .error (.reference (.outsideSheet (Text.trim target) maxSheetRows maxSheetColumns)) := by
  rw [applyFormula, h]
  exact if_pos hout

/-- For a target in the worksheet it depends on the formula what happens. -/
theorem applyFormula_of_inside (h : CellAddress.parse target = .ok a)
    (hrow : a.row < maxSheetRows - 1) (hcolumn : a.column < maxSheetColumns) :
    t.applyFormula formula target = match parseText formula with
      | .error fault => .error (.formula fault formula)
      | .ok e => .ok (t.setCell a.row a.column (eval ⟨t, some a.row⟩ e)) := by
  have hin : ¬(maxSheetRows - 1 ≤ a.row ∨ maxSheetColumns ≤ a.column) := by omega
  rw [applyFormula, h]
  refine (if_neg hin).trans ?_
  cases parseText formula <;> rfl

theorem fitsSheet_iff :
    t.fitsSheet ↔ t.rowCount + 1 ≤ maxSheetRows ∧ t.columnCount ≤ maxSheetColumns := by
  simp only [fitsSheet, Bool.and_eq_true, decide_eq_true_eq]

/-- A cell below the header of a worksheet does not let the table outgrow it. -/
theorem Receives.fitsSheet {t' : Table} {v : Value} (h : t.Receives a v t')
    (hrow : a.row < maxSheetRows - 1) (hcolumn : a.column < maxSheetColumns) (hfits : t.fitsSheet) :
    t'.fitsSheet := by
  rw [fitsSheet_iff] at hfits ⊢
  rw [h.rowCount, h.columnCount]
  omega

/-- A target that is no cell below the header of a worksheet fails as a reference, and with any other
target a formula fails exactly if it denotes no expression. Otherwise the target receives the
formula's value in the table as it was, and nothing else changes. -/
theorem Valid.applyFormula_outcome (h : t.Valid) (formula target : String) :
    ((∃ fault, t.applyFormula formula target = .error (.reference fault)) ↔
      ∀ a, CellAddress.parse target = .ok a →
        maxSheetRows - 1 ≤ a.row ∨ maxSheetColumns ≤ a.column) ∧
    ∀ a, CellAddress.parse target = .ok a → a.row < maxSheetRows - 1 → a.column < maxSheetColumns →
      ((∃ fault text, t.applyFormula formula target = .error (.formula fault text)) ↔
        ∃ fault, parseText formula = .error fault) ∧
      ((∃ e, parseText formula = .ok e) → ∃ t', t.applyFormula formula target = .ok t' ∧
        t.Receives a (evalText formula t (some a.row)) t' ∧ (t.fitsSheet → t'.fitsSheet)) := by
  refine ⟨⟨?_, fun hout => ?_⟩, fun a ha hrow hcolumn => ⟨⟨?_, ?_⟩, ?_⟩⟩
  · rintro ⟨fault, hfault⟩ a ha
    by_contra hin
    rw [applyFormula_of_inside ha (by omega) (by omega)] at hfault
    split at hfault <;> cases hfault
  · cases ha : CellAddress.parse target with
    | error fault => exact ⟨fault, applyFormula_of_noAddress ha⟩
    | ok a => exact ⟨_, applyFormula_of_outside ha (hout a ha)⟩
  · rintro ⟨fault, text, hfault⟩
    rw [applyFormula_of_inside ha hrow hcolumn] at hfault
    split at hfault
    next fault hparse => exact ⟨fault, hparse⟩
    next => cases hfault
  · rintro ⟨fault, hparse⟩
    exact ⟨fault, formula, by rw [applyFormula_of_inside ha hrow hcolumn, hparse]⟩
  · rintro ⟨e, hparse⟩
    have hvalue : evalText formula t (some a.row) = eval ⟨t, some a.row⟩ e := by
      rw [evalText, hparse]
    have hreceives := h.receives_setCell a (eval ⟨t, some a.row⟩ e)
    rw [applyFormula_of_inside ha hrow hcolumn, hparse, hvalue]
    exact ⟨_, rfl, hreceives, hreceives.fitsSheet hrow hcolumn⟩

def payments : Table := ⟨[⟨"B", .number, [.number 2.0, .number 3.0]⟩], 2⟩

theorem applyFormula_outcome_payments :
    payments.Valid ∧ CellAddress.parse "b4" = .ok ⟨3, 1⟩ ∧ payments.fitsSheet ∧
      ∃ t', payments.applyFormula "=SUM(A1:A2)+ROW()" "b4" = .ok t' ∧
        payments.Receives ⟨3, 1⟩ (.number 9.0) t' ∧ t'.fitsSheet := by
  have hvalid : payments.Valid := by decide
  have htarget : CellAddress.parse "b4" = .ok ⟨3, 1⟩ := by decide +kernel
  have hfits : payments.fitsSheet := by decide
  have hparse : ∃ e, parseText "=SUM(A1:A2)+ROW()" = .ok e := by
    have hok : (parseText "=SUM(A1:A2)+ROW()").isOk = true := by decide +kernel
    cases he : parseText "=SUM(A1:A2)+ROW()" with
    | ok e => exact ⟨e, rfl⟩
    | error fault =>
      rw [he] at hok
      cases hok
  have hvalue : evalText "=SUM(A1:A2)+ROW()" payments (some 3) = .number 9.0 := by decide +kernel
  have houtcome := (hvalid.applyFormula_outcome "=SUM(A1:A2)+ROW()" "b4").2 ⟨3, 1⟩ htarget (by decide)
    (by decide)
  obtain ⟨t', happly, hreceives, hstill⟩ := houtcome.2 hparse
  exact ⟨hvalid, htarget, hfits, t', happly, hvalue ▸ hreceives, hstill hfits⟩

end Table

end Tabular
