import Tabular.Proofs.Value.Order

/-!
# Comparing values

Nothing compares with an error. Of other values those of one category have an order, unless one of
them is a double that is not a number, and so does a missing cell with any value; all else is merely
unequal. A comparison holds as it does of the order of the values, so that of values with an order
exactly one of less, equal and greater holds. Values in ascending order are comparable throughout, as a
missing cell is only found before the present ones.
-/
namespace Tabular

/-- Things in ascending order are in the order of the first two, unless these are equal. -/
theorem compare_eq_then {α : Type} [Ord α] [Std.TransOrd α] {x y z : α}
    (hxy : (Ord.compare x y).isLE = true) (hyz : (Ord.compare y z).isLE = true) :
    Ord.compare x z = (Ord.compare x y).then (Ord.compare y z) := by
  cases hcompare : Ord.compare x y with
  | lt => exact Std.TransCmp.lt_of_lt_of_isLE hcompare hyz
  | eq => exact Std.TransCmp.congr_left hcompare
  | gt =>
    rw [hcompare] at hxy
    cases hxy

theorem Number.standing_eq {x y : Float} (hx : x.isNaN = false) (hy : y.isNaN = false) :
    standing x y = .ordered (Ord.compare (level (parts x)) (level (parts y))) := by
  simp only [standing, lt_iff_level hx hy, lt_iff_level hy hx, beq_iff_level hx hy]
  obtain h | h | h := lt_trichotomy (level (parts x)) (level (parts y))
  · rw [if_pos h, Int.compare_eq_lt.mpr h]
  · rw [if_neg h.not_lt, if_neg h.not_gt, if_pos h, Int.compare_eq_eq.mpr h]
  · rw [if_neg h.not_gt, if_pos h, Int.compare_eq_gt.mpr h]

namespace Value

variable {u v w : Value} {op : Comparison} {a b o : Ordering}

def isNaN : Value → Bool
  | number x => x.isNaN
  | _ => false

/-- Values that have an order: they are of one category, or one of them is missing. -/
def Comparable (v w : Value) : Prop := v.category = w.category ∨ v = missing ∨ w = missing

theorem Comparable.exists_standing (h : v.Comparable w) (hv : v.isError = false)
    (hw : w.isError = false) (hvnan : v.isNaN = false) (hwnan : w.isNaN = false) :
    ∃ o, v.standing w = .ordered o := by
  obtain hcategory | rfl | rfl := h
  · cases v <;> cases hv <;> cases w <;> cases hw <;> cases hcategory
    next => exact ⟨_, Number.standing_eq hvnan hwnan⟩
    all_goals exact ⟨_, rfl⟩
  · cases w <;> exact ⟨_, rfl⟩
  · cases v <;> exact ⟨_, rfl⟩

theorem standing_of_not_comparable (h : ¬v.Comparable w) (hv : v.isError = false)
    (hw : w.isError = false) : v.standing w = .unlike := by
  cases v <;> cases hv <;> cases w <;> cases hw
  all_goals first | rfl | exact absurd (by simp [Comparable, category]) h

/-- Only a missing cell comes before values of another kind. -/
theorem alike_of_standing (h : v.standing w = .ordered o) (ho : o.isLE = true) (hw : w.isError = false) :
    v = missing ∨ Alike v w := by
  cases v <;> cases w <;> cases hw
  all_goals first
    | exact .inl rfl
    | exact .inr (by constructor)
    | (cases h; done)
    | (cases h; cases ho)

theorem standing_trans (hunan : u.isNaN = false) (hvnan : v.isNaN = false) (hwnan : w.isNaN = false)
    (hv : v.isError = false) (hw : w.isError = false) (huv : u.standing v = .ordered a)
    (hvw : v.standing w = .ordered b) (ha : a.isLE = true) (hb : b.isLE = true) :
    u.standing w = .ordered (a.then b) := by
  obtain rfl | halike := alike_of_standing huv ha hv
  · obtain rfl | halike := alike_of_standing hvw hb hw
    · cases huv
      exact hvw
    · cases halike <;> cases huv <;> first | exact hvw | rfl
  · obtain rfl | halike' := alike_of_standing hvw hb hw
    · cases halike
      cases huv
      exact hvw
    · cases halike <;> cases halike'
      case missing =>
        cases huv
        exact hvw
      case number =>
        rw [standing, Number.standing_eq hunan hvnan] at huv
        rw [standing, Number.standing_eq hvnan hwnan] at hvw
        rw [standing, Number.standing_eq hunan hwnan]
        cases huv
        cases hvw
        exact congrArg _ (compare_eq_then ha hb)
      case error => cases hv
      all_goals
        cases huv
        cases hvw
        exact congrArg _ (compare_eq_then ha hb)

theorem holds_of_isError (h : v.isError = true ∨ w.isError = true) : v.holds op w = false := by
  cases v <;> cases w <;> simp_all [isError, holds, compare]

theorem isError_of_holds (h : v.holds op w = true) : v.isError = false ∧ w.isError = false := by
  have hsound : ¬(v.isError = true ∨ w.isError = true) := fun herror =>
    Bool.false_ne_true ((holds_of_isError herror).symm.trans h)
  simpa using hsound

theorem holds_of_ordered (hv : v.isError = false) (hw : w.isError = false)
    (h : v.standing w = .ordered o) : v.holds op w = op.holds o := by
  unfold holds compare
  split
  · cases hv
  · cases hw
  · rw [h]
    dsimp only
    cases op.holds o <;> rfl

theorem holds_of_unlike (hv : v.isError = false) (hw : w.isError = false)
    (h : v.standing w = .unlike) : v.holds op w = (op == .ne) := by
  unfold holds compare
  split
  · cases hv
  · cases hw
  · rw [h]
    cases op <;> rfl

/-- Every comparison with a value goes by its order, or only tells that the values are unlike, or
fails. -/
theorem holds_cases (hvnan : v.isNaN = false) (hwnan : w.isNaN = false) :
    ((v.isError = true ∨ w.isError = true) ∧ ∀ op, v.holds op w = false) ∨
    (v.isError = false ∧ w.isError = false ∧ v.Comparable w ∧ ∃ o, ∀ op, v.holds op w = op.holds o) ∨
    (v.isError = false ∧ w.isError = false ∧ ¬v.Comparable w ∧ ∀ op, v.holds op w = (op == .ne)) := by
  by_cases herror : v.isError = true ∨ w.isError = true
  · exact .inl ⟨herror, fun op => holds_of_isError herror⟩
  · obtain ⟨hv, hw⟩ := not_or.mp herror
    rw [Bool.not_eq_true] at hv hw
    by_cases hcomparable : v.Comparable w
    · obtain ⟨o, ho⟩ := hcomparable.exists_standing hv hw hvnan hwnan
      exact .inr (.inl ⟨hv, hw, hcomparable, o, fun op => holds_of_ordered hv hw ho⟩)
    · have hunlike := standing_of_not_comparable hcomparable hv hw
      exact .inr (.inr ⟨hv, hw, hcomparable, fun op => holds_of_unlike hv hw hunlike⟩)

/-- Comparisons that exclude each other for every order do so for all values. -/
theorem not_holds_of_excludes {op' : Comparison} (hvnan : v.isNaN = false) (hwnan : w.isNaN = false)
    (hexcludes : ∀ o, op.holds o = true → op'.holds o = false) (h : v.holds op w = true) :
    v.holds op' w = false := by
  obtain ⟨-, hop⟩ | ⟨-, -, -, o, hop⟩ | ⟨-, -, -, hop⟩ := holds_cases hvnan hwnan
  · exact hop op'
  · rw [hop] at h ⊢
    exact hexcludes o h
  · rw [hop] at h ⊢
    obtain rfl := beq_iff_eq.mp h
    have hlt := hexcludes .lt rfl
    cases op' <;> first | rfl | cases hlt

theorem holds_eq_or_ne (hvnan : v.isNaN = false) (hwnan : w.isNaN = false) (hw : w.isError = false) :
    v.holds .eq w = true ∨ v.holds .ne w = true ↔ v.isError = false := by
  obtain ⟨herror, hop⟩ | ⟨hv, -, -, o, hop⟩ | ⟨hv, -, -, hop⟩ := holds_cases hvnan hwnan
  · simp [hop, herror.resolve_right (Bool.eq_false_iff.mp hw)]
  · simp only [hop, hv, iff_true]
    cases o <;> decide
  · simp [hop, hv]

theorem holds_lt_or_eq_or_gt (hvnan : v.isNaN = false) (hwnan : w.isNaN = false)
    (hw : w.isError = false) :
    v.holds .lt w = true ∨ v.holds .eq w = true ∨ v.holds .gt w = true ↔
      v.isError = false ∧ v.Comparable w := by
  obtain ⟨herror, hop⟩ | ⟨hv, -, hcomparable, o, hop⟩ | ⟨-, -, hnot, hop⟩ := holds_cases hvnan hwnan
  · simp [hop, herror.resolve_right (Bool.eq_false_iff.mp hw)]
  · simp only [hop, hv, hcomparable, and_self, iff_true]
    cases o <;> decide
  · simp [hop, hnot]

/-- A comparison that allows the orders of two others, and no unlike values, holds where one of these
does. -/
theorem holds_iff_or {op₁ op₂ : Comparison} (hvnan : v.isNaN = false) (hwnan : w.isNaN = false)
    (horders : ∀ o, op.holds o = (op₁.holds o || op₂.holds o))
    (hunlike : op ≠ .ne ∧ op₁ ≠ .ne ∧ op₂ ≠ .ne) :
    v.holds op w = true ↔ v.holds op₁ w = true ∨ v.holds op₂ w = true := by
  obtain ⟨-, hop⟩ | ⟨-, -, -, o, hop⟩ | ⟨-, -, -, hop⟩ := holds_cases hvnan hwnan
  · simp [hop]
  · rw [hop, hop, hop, horders, Bool.or_eq_true]
  · simp [hop, hunlike]

theorem holds_le_iff (hvnan : v.isNaN = false) (hwnan : w.isNaN = false) :
    v.holds .le w = true ↔ v.holds .lt w = true ∨ v.holds .eq w = true :=
  holds_iff_or hvnan hwnan (fun o => by cases o <;> rfl) (by decide)

theorem holds_ge_iff (hvnan : v.isNaN = false) (hwnan : w.isNaN = false) :
    v.holds .ge w = true ↔ v.holds .gt w = true ∨ v.holds .eq w = true :=
  holds_iff_or hvnan hwnan (fun o => by cases o <;> rfl) (by decide)

/-- Behind a comparison that holds there is an order, unless it only tells values apart. -/
theorem exists_standing_of_holds (hvnan : v.isNaN = false) (hwnan : w.isNaN = false) (hop : op ≠ .ne)
    (h : v.holds op w = true) : ∃ o, v.standing w = .ordered o ∧ op.holds o = true := by
  obtain ⟨hv, hw⟩ := isError_of_holds h
  by_cases hcomparable : v.Comparable w
  · obtain ⟨o, ho⟩ := hcomparable.exists_standing hv hw hvnan hwnan
    exact ⟨o, ho, holds_of_ordered hv hw ho ▸ h⟩
  · rw [holds_of_unlike hv hw (standing_of_not_comparable hcomparable hv hw), beq_iff_eq] at h
    exact absurd h hop

/-- What is less than a value, or no greater, is so than whatever the value is no greater than. -/
theorem holds_trans (hop : op = .lt ∨ op = .le) (hunan : u.isNaN = false) (hvnan : v.isNaN = false)
    (hwnan : w.isNaN = false) (huv : u.holds op v = true) (hvw : v.holds .le w = true) :
    u.holds op w = true := by
  obtain ⟨hu, hv⟩ := isError_of_holds huv
  obtain ⟨-, hw⟩ := isError_of_holds hvw
  have hne : op ≠ .ne := by rcases hop with rfl | rfl <;> decide
  obtain ⟨a, huv, ha⟩ := exists_standing_of_holds hunan hvnan hne huv
  obtain ⟨b, hvw, hb⟩ := exists_standing_of_holds hvnan hwnan (by decide) hvw
  have horders : a.isLE = true ∧ b.isLE = true ∧ op.holds (a.then b) = true := by
    revert ha hb
    rcases hop with rfl | rfl <;> cases a <;> cases b <;> decide
  rw [holds_of_ordered hu hw (standing_trans hunan hvnan hwnan hv hw huv hvw horders.1 horders.2.1)]
  exact horders.2.2

end Value

end Tabular
