import Tabular.Command.Action

/-!
# What actions do

`a.Gives w x w'` says that the action `a` succeeds with `x` and makes the world `w'` out of `w`. An action
without a trace is one that leaves the files and what is printed alone if it fails; for this it does nothing
visible until nothing can fail any more.
-/
namespace Tabular

namespace Action

variable {α β : Type} {a : Action α} {k : α → Action β} {w w' : World} {x : α} {y : β}

def Gives (a : Action α) (w : World) (x : α) (w' : World) : Prop := a.run.run w = (.ok x, w')

theorem run_bind : (a >>= k).run.run w = match a.run.run w with
    | (.ok x, w') => (k x).run.run w'
    | (.error e, w') => (.error e, w') := by
  rw [ExceptT.run_bind, StateT.run_bind]
  generalize a.run.run w = result
  obtain ⟨r, w'⟩ := result
  cases r <;> rfl

theorem gives_bind : (a >>= k).Gives w y w' ↔ ∃ x w₁, a.Gives w x w₁ ∧ (k x).Gives w₁ y w' := by
  unfold Gives
  rw [run_bind]
  constructor
  · intro h
    cases ha : a.run.run w with
    | mk r w₁ =>
      rw [ha] at h
      cases r with
      | error e => cases h
      | ok x => exact ⟨x, w₁, rfl, h⟩
  · rintro ⟨x, w₁, ha, hk⟩
    rw [ha]
    exact hk

theorem gives_lift {r : Except Error α} : (liftM r : Action α).Gives w x w' ↔ r = .ok x ∧ w' = w := by
  cases r with
  | error e => exact ⟨nofun, nofun⟩
  | ok b =>
    constructor
    · intro h
      cases h
      exact ⟨rfl, rfl⟩
    · rintro ⟨h, rfl⟩
      cases h
      rfl

theorem gives_lift_bind {r : Except Error α} :
    (liftM r >>= k).Gives w y w' ↔ ∃ x, r = .ok x ∧ (k x).Gives w y w' := by
  rw [gives_bind]
  constructor
  · rintro ⟨x, w₁, hx, hk⟩
    obtain ⟨hr, rfl⟩ := gives_lift.mp hx
    exact ⟨x, hr, hk⟩
  · rintro ⟨x, hx, hk⟩
    exact ⟨x, w, gives_lift.mpr ⟨hx, rfl⟩, hk⟩

theorem gives_look {lookup : Lookup} : look.Gives w lookup w' ↔ lookup = w.store.lookup ∧ w' = w := by
  constructor
  · intro h
    cases h
    exact ⟨rfl, rfl⟩
  · rintro ⟨rfl, rfl⟩
    rfl

theorem gives_print {bytes : ByteArray} : (print bytes).Gives w () w' ↔ w' = w.printed bytes := by
  constructor
  · intro h
    cases h
    rfl
  · rintro rfl
    rfl

theorem gives_note {text : String} : (note text).Gives w () w' ↔ w' = w.noted text := by
  constructor
  · intro h
    cases h
    rfl
  · rintro rfl
    rfl

variable {path : String} {bytes : ByteArray}

theorem run_writeFile : (writeFile path bytes).run.run w = match w.store.write? path bytes with
    | some store => (.ok (), { w with store })
    | none => (.error (.io path), w) := by
  show (match w.store.write? path bytes with
    | some store => modify ({ · with store })
    | none => throw (Error.io path) : Action Unit).run.run w = _
  cases w.store.write? path bytes <;> rfl

theorem gives_writeFile : (writeFile path bytes).Gives w () w' ↔
    ∃ store, w.store.write? path bytes = some store ∧ w' = { w with store } := by
  rw [Gives, run_writeFile]
  cases w.store.write? path bytes with
  | none => exact ⟨nofun, nofun⟩
  | some store =>
    constructor
    · intro h
      cases h
      exact ⟨store, rfl, rfl⟩
    · rintro ⟨_, h, rfl⟩
      cases h
      rfl

/-- The action leaves the world as it is. -/
def Silent (a : Action α) : Prop := ∀ w, (a.run.run w).2 = w

def Unfailing (a : Action α) : Prop := ∀ w, ∃ x w', a.Gives w x w'

/-- Where the action fails, no file has changed and nothing was printed. -/
def Traceless (a : Action α) : Prop :=
  ∀ w e w', a.run.run w = (.error e, w') → w'.store = w.store ∧ w'.output = w.output

theorem silent_lift (r : Except Error α) : (liftM r : Action α).Silent := by
  intro w
  cases r <;> rfl

theorem silent_look : look.Silent := fun _ => rfl

theorem unfailing_print (bytes : ByteArray) : (print bytes).Unfailing := fun _ => ⟨(), _, gives_print.mpr rfl⟩

theorem unfailing_note (text : String) : (note text).Unfailing := fun _ => ⟨(), _, gives_note.mpr rfl⟩

theorem Silent.bind (ha : a.Silent) (hk : ∀ x, (k x).Silent) : (a >>= k).Silent := by
  intro w
  rw [run_bind]
  have hw := ha w
  cases hrun : a.run.run w with
  | mk r w' =>
    rw [hrun] at hw
    cases hw
    cases r with
    | error e => rfl
    | ok x => exact hk x w'

theorem Unfailing.bind (ha : a.Unfailing) (hk : ∀ x, (k x).Unfailing) : (a >>= k).Unfailing := by
  intro w
  obtain ⟨x, w₁, hx⟩ := ha w
  obtain ⟨y, w₂, hy⟩ := hk x w₁
  exact ⟨y, w₂, gives_bind.mpr ⟨x, w₁, hx, hy⟩⟩

namespace Traceless

theorem of_unfailing (h : a.Unfailing) : a.Traceless := by
  intro w e w' hrun
  obtain ⟨x, w₁, hx⟩ := h w
  rw [Gives, hrun] at hx
  cases hx

theorem throw (e : Error) : (throw e : Action α).Traceless := by
  intro w e' w' hrun
  cases hrun
  exact ⟨rfl, rfl⟩

theorem writeFile (path : String) (bytes : ByteArray) : (writeFile path bytes).Traceless := by
  intro w e w' hrun
  rw [run_writeFile] at hrun
  cases hwrite : w.store.write? path bytes with
  | some store =>
    rw [hwrite] at hrun
    cases hrun
  | none =>
    rw [hwrite] at hrun
    cases hrun
    exact ⟨rfl, rfl⟩

/-- What is silent may come first. -/
theorem after (ha : a.Silent) (hk : ∀ x, (k x).Traceless) : (a >>= k).Traceless := by
  intro w e w' hrun
  rw [run_bind] at hrun
  have hw := ha w
  cases hresult : a.run.run w with
  | mk r w₁ =>
    rw [hresult] at hrun hw
    cases hw
    cases r with
    | error _ =>
      cases hrun
      exact ⟨rfl, rfl⟩
    | ok x => exact hk x _ e w' hrun

/-- What cannot fail may come last. -/
theorem before (ha : a.Traceless) (hk : ∀ x, (k x).Unfailing) : (a >>= k).Traceless := by
  intro w e w' hrun
  rw [run_bind] at hrun
  cases hresult : a.run.run w with
  | mk r w₁ =>
    rw [hresult] at hrun
    cases r with
    | error _ =>
      cases hrun
      exact ha w e w' hresult
    | ok x =>
      obtain ⟨y, w₂, hy⟩ := hk x w₁
      rw [Gives] at hy
      cases hrun.symm.trans hy

end Traceless

end Action

end Tabular
