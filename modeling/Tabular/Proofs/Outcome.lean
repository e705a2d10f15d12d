import Mathlib.Data.List.Forall2
import Tabular.Error

/-!
# Outcomes of computations that may fail

A sequence of computations succeeds when each of them does, and fails with the first failure among
them. What a sequence yields follows from what its parts yield.
-/
namespace Tabular

section
variable {ε α β : Type} {x : Except ε α} {f : α → Except ε β}

theorem bind_eq_ok {b : β} : x >>= f = .ok b ↔ ∃ a, x = .ok a ∧ f a = .ok b := by
  cases x <;> simp [bind, Except.bind]

theorem exists_of_map_eq_ok {g : α → β} {b : β} (h : x.map g = .ok b) : ∃ a, x = .ok a ∧ g a = b := by
  cases x with
  | error e => cases h
  | ok a => exact ⟨a, rfl, Except.ok.inj h⟩

theorem toOption_map {g : α → β} : (x.map g).toOption = x.toOption.map g := by
  cases x <;> rfl

/-- Computations of one optional result have one result, or none of them has any. -/
theorem cases_of_toOption_eq {δ : Type} {y : Except δ α} (h : x.toOption = y.toOption) :
    (∃ a, x = .ok a ∧ y = .ok a) ∨ ((∃ e, x = .error e) ∧ ∃ d, y = .error d) := by
  cases x with
  | error e =>
    cases y with
    | error d => exact .inr ⟨⟨e, rfl⟩, d, rfl⟩
    | ok b => cases h
  | ok a =>
    cases y with
    | error d => cases h
    | ok b =>
      cases h
      exact .inl ⟨a, rfl, rfl⟩

theorem mapM_eq_ok {g : α → β} {l : List α} (h : ∀ a ∈ l, f a = .ok (g a)) :
    l.mapM f = .ok (l.map g) := by
  induction l with
  | nil => rfl
  | cons a l ih =>
    obtain ⟨ha, hl⟩ := List.forall_mem_cons.mp h
    rw [List.mapM_cons, ha, ih hl]
    rfl

theorem mapM_eq_of_forall₂ {γ : Type} {f : α → Except ε γ} {g : β → Except ε γ} {l : List α}
    {l' : List β} (h : List.Forall₂ (fun a b => f a = g b) l l') : l.mapM f = l'.mapM g := by
  induction h with
  | nil => rfl
  | cons hab _ ih => rw [List.mapM_cons, List.mapM_cons, hab, ih]

theorem mapM_eq_ok_iff {l : List α} {bs : List β} :
    l.mapM f = .ok bs ↔ List.Forall₂ (fun a b => f a = .ok b) l bs := by
  induction l generalizing bs with
  | nil =>
    rw [List.forall₂_nil_left_iff]
    exact ⟨fun h => (Except.ok.inj h).symm, fun h => h ▸ rfl⟩
  | cons a l ih =>
    rw [List.mapM_cons, bind_eq_ok, List.forall₂_cons_left_iff]
    refine exists_congr fun b => ?_
    rw [bind_eq_ok]
    constructor
    · intro ⟨ha, rest, hrest, hbs⟩
      exact ⟨rest, ha, ih.mp hrest, (Except.ok.inj hbs).symm⟩
    · intro ⟨rest, ha, hrest, hbs⟩
      exact ⟨ha, rest, ih.mpr hrest, congrArg Except.ok hbs.symm⟩

theorem exists_mapM_eq_ok_iff {l : List α} :
    (∃ bs, l.mapM f = .ok bs) ↔ ∀ a ∈ l, ∃ b, f a = .ok b := by
  induction l with
  | nil => exact iff_of_true ⟨[], rfl⟩ nofun
  | cons a l ih =>
    rw [List.forall_mem_cons, ← ih, List.mapM_cons]
    constructor
    · intro ⟨bs, h⟩
      obtain ⟨b, hb, h⟩ := bind_eq_ok.mp h
      obtain ⟨rest, hrest, -⟩ := bind_eq_ok.mp h
      exact ⟨⟨b, hb⟩, rest, hrest⟩
    · intro ⟨⟨b, hb⟩, rest, hrest⟩
      exact ⟨b :: rest, bind_eq_ok.mpr ⟨b, hb, bind_eq_ok.mpr ⟨rest, hrest, rfl⟩⟩⟩

/-- A sequence fails with what the first failure in it is. -/
theorem mapM_eq_error_iff {l : List α} {e : ε} : l.mapM f = .error e ↔
    ∃ front a back, l = front ++ a :: back ∧ (∀ b ∈ front, ∃ c, f b = .ok c) ∧ f a = .error e := by
  induction l with
  | nil =>
    refine iff_of_false nofun ?_
    intro ⟨front, a, back, h, _⟩
    simp at h
  | cons a l ih =>
    rw [List.mapM_cons]
    cases ha : f a with
    | error d =>
      constructor
      · intro h
        cases h
        exact ⟨[], a, l, rfl, nofun, ha⟩
      · intro ⟨front, b, back, hl, hfront, hb⟩
        cases front with
        | nil =>
          cases hl
          cases ha.symm.trans hb
          rfl
        | cons b' front =>
          cases hl
          obtain ⟨c, hc⟩ := hfront a List.mem_cons_self
          cases ha.symm.trans hc
    | ok c =>
      have hrest : (l.mapM f >>= fun bs => pure (c :: bs)) = .error e ↔ l.mapM f = .error e := by
        cases l.mapM f with
        | error d => rfl
        | ok bs => exact iff_of_false nofun nofun
      refine hrest.trans (ih.trans ?_)
      constructor
      · intro ⟨front, b, back, hl, hfront, hb⟩
        exact ⟨a :: front, b, back, congrArg (a :: ·) hl, List.forall_mem_cons.mpr ⟨⟨c, ha⟩, hfront⟩, hb⟩
      · intro ⟨front, b, back, hl, hfront, hb⟩
        cases front with
        | nil =>
          cases hl
          cases ha.symm.trans hb
        | cons b' front =>
          cases hl
          exact ⟨front, b, back, rfl, (List.forall_mem_cons.mp hfront).2, hb⟩

/-- The computation gives a result with a property, or fails with an error that is not bad. -/
inductive Yields (bad : ε → Prop) (P : α → Prop) : Except ε α → Prop
  | ok {a : α} (h : P a) : Yields bad P (.ok a)
  | error {e : ε} (h : ¬bad e) : Yields bad P (.error e)

namespace Yields

variable {bad : ε → Prop} {P : α → Prop} {Q : β → Prop}

theorem result {a : α} (h : Yields bad P (.ok a)) : P a := by
  cases h with
  | ok h => exact h

theorem not_bad {e : ε} (h : Yields bad P (.error e)) : ¬bad e := by
  cases h with
  | error h => exact h

theorem mono {bad' : ε → Prop} (h : Yields bad P x) (hbad : ∀ e, bad' e → bad e) :
    Yields bad' P x := by
  cases h with
  | ok h => exact .ok h
  | error h => exact .error fun he => h (hbad _ he)

theorem bind (h : Yields bad P x) (hf : ∀ a, P a → Yields bad Q (f a)) :
    Yields bad Q (x >>= f) := by
  cases h with
  | ok h => exact hf _ h
  | error h => exact .error h

theorem map {g : α → β} (h : Yields bad P x) (hg : ∀ a, P a → Q (g a)) :
    Yields bad Q (x.map g) := by
  cases h with
  | ok h => exact .ok (hg _ h)
  | error h => exact .error h

theorem discard (h : Yields bad P x) : Yields bad (fun _ => True) (discard x) := by
  cases h with
  | ok h => exact .ok trivial
  | error h => exact .error h

theorem mapError {δ : Type} {g : δ → ε} (y : Except δ α) (hg : ∀ d, ¬bad (g d)) :
    Yields bad (fun _ => True) (y.mapError g) := by
  cases y with
  | ok a => exact .ok trivial
  | error d => exact .error (hg d)

/-- A check that may fail before the rest is computed. -/
theorem check {c : Prop} [Decidable c] {e : ε} {f : Unit → Except ε β} (he : ¬bad e)
    (hf : ¬c → Yields bad Q (f ())) : Yields bad Q (if c then throw e >>= f else f ()) := by
  split
  next => exact .error he
  next hc => exact hf hc

theorem mapM {f : α → Except ε β} {R : α → β → Prop} (h : ∀ a, Yields bad (R a) (f a))
    (l : List α) : Yields bad (List.Forall₂ R l) (l.mapM f) := by
  induction l with
  | nil => exact .ok .nil
  | cons a l ih =>
    rw [List.mapM_cons]
    exact (h a).bind fun b hb => ih.bind fun bs hbs => .ok (.cons hb hbs)

theorem mapM_mem {l : List α} (h : ∀ a ∈ l, Yields bad Q (f a)) :
    Yields bad (fun bs => ∀ b ∈ bs, Q b) (l.mapM f) := by
  induction l with
  | nil => exact .ok nofun
  | cons a l ih =>
    obtain ⟨ha, hl⟩ := List.forall_mem_cons.mp h
    rw [List.mapM_cons]
    exact ha.bind fun b hb => (ih hl).bind fun bs hbs => .ok (List.forall_mem_cons.mpr ⟨hb, hbs⟩)

theorem foldlM {f : β → α → Except ε β} (h : ∀ b a, Q b → Yields bad Q (f b a)) {b : β} (hb : Q b)
    (l : List α) : Yields bad Q (l.foldlM f b) := by
  induction l generalizing b with
  | nil => exact .ok hb
  | cons a l ih =>
    rw [List.foldlM_cons]
    exact (h b a hb).bind fun _ hb' => ih hb'

theorem forM {f : α → Except ε PUnit} (h : ∀ a, Yields bad (fun _ => True) (f a)) (l : List α) :
    Yields bad (fun _ => True) (l.forM f) := by
  induction l with
  | nil => exact .ok trivial
  | cons a l ih =>
    rw [List.forM_eq_forM, List.forM_cons]
    exact (h a).bind fun _ _ => ih

end Yields

end

end Tabular
