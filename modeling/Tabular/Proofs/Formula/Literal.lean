import Tabular.Proofs.Formula.Soundness
import Tabular.Proofs.Number.Bits
import Tabular.Proofs.Number.Decimal

/-!
# Literals of formulas

The numbers written in a formula. They are numbers among its tokens, so that each of them was read
from a decimal and is a number, though infinite if its decimal is too large.
-/
namespace Tabular.Formula

mutual

def Expr.literals : Expr → List Float
  | .number n => [n]
  | .text _ => []
  | .boolean _ => []
  | .cell _ => []
  | .range _ _ => []
  | .binary _ left right => left.literals ++ right.literals
  | .unary _ operand => operand.literals
  | .call _ arguments => listLiterals arguments

def listLiterals : List Expr → List Float
  | [] => []
  | e :: es => e.literals ++ listLiterals es

end

theorem mem_listLiterals {es : List Expr} {x : Float} :
    x ∈ listLiterals es ↔ ∃ e ∈ es, x ∈ e.literals := by
  induction es with
  | nil => simp [listLiterals]
  | cons e es ih => simp [listLiterals, ih]

theorem Derives.literal_mem {w : Weights} {n : Nat} {p : Phrase} {ts : List Token} {e : Expr}
    (h : Derives w n p ts e) : ∀ x ∈ e.literals, Token.number x ∈ ts := by
  induction h with
  | argument _ _ ih ihs =>
    intro x hx
    simp only [Expr.literals, listLiterals, List.mem_append] at hx ihs
    exact List.mem_append.mpr (hx.imp (ih x) fun hx => .tail _ (ihs x hx))
  | raised _ _ iha ihb | operator _ _ _ iha ihb =>
    intro x hx
    simp only [Expr.literals, List.mem_append] at hx
    exact List.mem_append.mpr (hx.imp (iha x) fun hx => .tail _ (ihb x hx))
  | _ => simp_all [Expr.literals, listLiterals]

theorem isNaN_of_parse? {cs : List Char} {x : Float} (h : Number.parse? cs = some x) :
    x.isNaN = false := by
  have hunsigned {cs : List Char} {x : Float} (h : Number.parseUnsigned? cs = some x) :
      x.isNaN = false := by
    obtain ⟨d, -, rfl⟩ := Option.map_eq_some_iff.mp h
    exact Number.isNaN_toFloat d
  unfold Number.parse? at h
  split at h
  next =>
    obtain ⟨y, hy, rfl⟩ := Option.map_eq_some_iff.mp h
    rw [Number.isNaN_neg]
    exact hunsigned hy
  next => exact hunsigned h
  next => exact hunsigned h

theorem isNaN_of_wordLexeme {c : Char} {cs rest : List Char} {x : Float}
    (h : wordLexeme c cs = .ok (.number x, rest)) : x.isNaN = false := by
  unfold wordLexeme at h
  split at h
  · split at h
    next hparse =>
      cases h
      exact isNaN_of_parse? hparse
    next => cases h
  · split at h <;> cases h

/-- Only a word can be a number. -/
theorem wordLexeme_of_lexeme_number {c : Char} {cs rest : List Char} {x : Float}
    (h : lexeme c cs = .ok (.number x, rest)) : wordLexeme c cs = .ok (.number x, rest) := by
  unfold lexeme at h
  split at h
  all_goals first
    | cases h
    | split at h <;> cases h
    | exact h

theorem isNaN_of_mem_tokensFrom {total : Nat} {cs : List Char} {ts : List Token}
    (h : tokensFrom total cs = .ok ts) : ∀ x, Token.number x ∈ ts → x.isNaN = false := by
  fun_induction tokensFrom total cs generalizing ts with
  | case1 =>
    cases h
    exact nofun
  | case2 => cases h
  | case3 cs c cs' _ t rest hlexeme ih =>
    cases hrest : tokensFrom total rest with
    | error fault => simp [hrest, Except.map] at h
    | ok us =>
      simp only [hrest, Except.map, Except.ok.injEq] at h
      subst h
      intro x hx
      obtain rfl | hx := List.mem_cons.mp hx
      · exact isNaN_of_wordLexeme (wordLexeme_of_lexeme_number hlexeme)
      · exact ih hrest x hx

/-- A literal of a formula is a number. -/
theorem isNaN_of_mem_literals {s : String} {e : Expr} (h : parseText s = .ok e) {x : Float}
    (hx : x ∈ e.literals) : x.isNaN = false := by
  unfold parseText at h
  split at h
  next => cases h
  next ts htokens =>
    obtain ⟨n, -, hd⟩ := derivesWithin_of_parse h
    exact isNaN_of_mem_tokensFrom htokens x (hd.literal_mem x hx)

end Tabular.Formula
