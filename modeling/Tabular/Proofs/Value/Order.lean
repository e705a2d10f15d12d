import Tabular.Proofs.Number.Order
import Tabular.Value.Order

/-!
# The order of sorting

The order of sorting compares kinds first and then values of one kind. It is a total preorder in
which numbers are in the total order of doubles, and it makes no two different values equal.
-/
namespace Tabular.Value

variable {v w : Value}

/-- Values of one kind. -/
inductive Alike : Value → Value → Prop
  | missing : Alike missing missing
  | number (x y : Double) : Alike (number x) (number y)
  | text (s t : String) : Alike (text s) (text t)
  | boolean (a b : Bool) : Alike (boolean a) (boolean b)
  | error (e f : CellError) : Alike (error e) (error f)

theorem alike_of_rank_eq (h : v.rank = w.rank) : Alike v w := by
  cases v <;> cases w <;> cases h <;> constructor

theorem sortOrder_of_rank_ne (h : v.rank ≠ w.rank) :
    v.sortOrder w = Ord.compare v.rank w.rank := by
  cases v <;> cases w <;> first | rfl | cases h rfl

theorem sortOrder_of_rank_lt (h : v.rank < w.rank) : v.sortOrder w = .lt := by
  rw [sortOrder_of_rank_ne h.ne, Nat.compare_eq_lt.mpr h]

theorem rank_le_of_isLE (h : (v.sortOrder w).isLE = true) : v.rank ≤ w.rank := by
  by_cases hrank : v.rank = w.rank
  · exact hrank.le
  · rw [sortOrder_of_rank_ne hrank] at h
    exact Nat.isLE_compare.mp h

instance : Std.OrientedCmp sortOrder where
  eq_swap {v w} := by
    by_cases hrank : v.rank = w.rank
    · cases alike_of_rank_eq hrank
      case missing => rfl
      all_goals exact Std.OrientedOrd.eq_swap
    · rw [sortOrder_of_rank_ne hrank, sortOrder_of_rank_ne (Ne.symm hrank)]
      exact Std.OrientedOrd.eq_swap

instance : Std.TransCmp sortOrder where
  isLE_trans {u v w} huv hvw := by
    have huvrank := rank_le_of_isLE huv
    have hvwrank := rank_le_of_isLE hvw
    by_cases hlt : u.rank < w.rank
    · rw [sortOrder_of_rank_lt hlt]
      rfl
    · have hurank : u.rank = v.rank := by omega
      have hwrank : v.rank = w.rank := by omega
      cases alike_of_rank_eq hurank <;> cases alike_of_rank_eq hwrank
      case missing => rfl
      all_goals exact Std.TransOrd.isLE_trans huv hvw

/-- Values that sorting does not tell apart are the same. -/
instance : Std.LawfulEqCmp sortOrder where
  eq_of_compare {v w} h := by
    by_cases hrank : v.rank = w.rank
    · cases alike_of_rank_eq hrank with
      | missing => rfl
      | number x y => exact congrArg number (Double.orderKey_injective (Int.compare_eq_eq.mp h))
      | text s t => exact congrArg text (Std.LawfulEqOrd.eq_of_compare h)
      | boolean a b => exact congrArg boolean (Std.LawfulEqOrd.eq_of_compare h)
      | error e f =>
        have hindex := Nat.compare_eq_eq.mp h
        cases e <;> cases f <;> first | rfl | cases hindex
    · rw [sortOrder_of_rank_ne hrank] at h
      exact absurd (Nat.compare_eq_eq.mp h) hrank

theorem isLE_sortOrder_total (v w : Value) :
    (v.sortOrder w).isLE = true ∨ (w.sortOrder v).isLE = true := by
  have hswap : w.sortOrder v = (v.sortOrder w).swap := Std.OrientedCmp.eq_swap
  rw [hswap]
  cases v.sortOrder w <;> decide

theorem isLE_sortOrder_number {x y : Double} :
    ((number x).sortOrder (number y)).isLE = true ↔ x.TotalOrder y :=
  Int.isLE_compare.trans Double.orderKey_le_iff

/-- A total preorder of values that has missing cells before numbers, numbers before texts, texts
before booleans and booleans before errors, and numbers in their total order. -/
structure IsSortOrder (order : Value → Value → Ordering) : Prop where
  refl (v : Value) : order v v = .eq
  trans (u v w : Value) :
    (order u v).isLE = true → (order v w).isLE = true → (order u w).isLE = true
  total (v w : Value) : (order v w).isLE = true ∨ (order w v).isLE = true
  swap (v w : Value) : order w v = (order v w).swap
  kinds (x : Double) (s : String) (b : Bool) (e : CellError) :
    order missing (number x) = .lt ∧ order (number x) (text s) = .lt ∧
      order (text s) (boolean b) = .lt ∧ order (boolean b) (error e) = .lt
  numbers (x y : Double) : (order (number x) (number y)).isLE = true ↔ x.TotalOrder y

theorem isSortOrder_sortOrder : IsSortOrder sortOrder where
  refl _ := Std.ReflCmp.compare_self
  trans _ _ _ := Std.TransCmp.isLE_trans
  total := isLE_sortOrder_total
  swap _ _ := Std.OrientedCmp.eq_swap
  kinds _ _ _ _ := ⟨rfl, rfl, rfl, rfl⟩
  numbers _ _ := isLE_sortOrder_number

end Tabular.Value
