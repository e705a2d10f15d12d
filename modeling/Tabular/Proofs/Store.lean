import Tabular.Store

/-!
# Writing into a store

A file that is written is found at its path, and at every other place there is what was there before. Where
there was a file it is replaced, and a new one needs a directory, so that directories stay what they are.
-/
namespace Tabular.Store

variable {s s' : Store} {place q : Place} {path : String} {bytes : ByteArray}

theorem current_put : (s.put place bytes).current = s.current := rfl

theorem content?_put_self (h : place ≠ []) : (s.put place bytes).content? place = some (.file bytes) := by
  rw [content?, if_neg h, put, List.lookup_cons_self]

theorem content?_put_of_ne (h : q ≠ place) : (s.put place bytes).content? q = s.content? q := by
  rw [content?, content?, put, List.lookup_cons, beq_eq_false_iff_ne.mpr h]

theorem isDirectory_nil : s.isDirectory [] = true := rfl

theorem ne_nil_of_isDirectory (h : s.isDirectory place = false) : place ≠ [] := by
  rintro rfl
  rw [isDirectory_nil] at h
  cases h

section Put

variable (hfree : s.isDirectory place = false)

include hfree

theorem isDirectory_put : (s.put place bytes).isDirectory q = s.isDirectory q := by
  by_cases hq : q = place
  · subst hq
    rw [hfree, isDirectory, content?_put_self (ne_nil_of_isDirectory hfree)]
  · rw [isDirectory, isDirectory, content?_put_of_ne hq]

theorem follow_put : (s.put place bytes).follow = s.follow := by
  funext q part
  rw [follow, follow, isDirectory_put hfree]

/-- All paths lead where they led. -/
theorem place?_put : (s.put place bytes).place? = s.place? := by
  funext path
  rw [place?, place?, follow_put hfree, current_put]

end Put

theorem write?_eq_some : s.write? path bytes = some s' ↔
    ∃ place, s.place? path = some place ∧ s.isDirectory place = false ∧ s' = s.put place bytes := by
  rw [write?, Option.bind_eq_bind, Option.bind_eq_some_iff]
  constructor
  · rintro ⟨place, hplace, h⟩
    split at h
    next => cases h
    next hfree => exact ⟨place, hplace, by simpa using hfree, (Option.some.inj h).symm⟩
  · rintro ⟨place, hplace, hfree, rfl⟩
    exact ⟨place, hplace, by rw [hfree]; rfl⟩

/-- In the second store there is a file at a path; otherwise it is the first one. -/
structure Differs (s : Store) (path : String) (bytes : ByteArray) (s' : Store) : Prop where
  found : s'.lookup path = some (.file bytes)
  others : ∀ q, s.place? path ≠ some q → s'.content? q = s.content? q
  places : s'.place? = s.place?

theorem differs_of_write? (h : s.write? path bytes = some s') : s.Differs path bytes s' := by
  obtain ⟨place, hplace, hfree, rfl⟩ := write?_eq_some.mp h
  refine ⟨?_, fun q hq => content?_put_of_ne ?_, place?_put hfree⟩
  · rw [lookup, place?_put hfree, hplace, Option.bind_eq_bind, Option.bind_some,
      content?_put_self (ne_nil_of_isDirectory hfree)]
  · rintro rfl
    exact hq hplace

end Tabular.Store
