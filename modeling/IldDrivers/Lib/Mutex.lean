import Mathlib.Data.Set.Basic
import Mathlib.Tactic.Cases

/-!
# Mutual exclusion

The state of a mutex is `none` while it is free and `some k` while `k` holds it. `Excludes m inside`
says that whoever is inside the critical section holds the mutex; then at most one is inside
(`Excludes.unique`), nobody while the mutex is free (`Excludes.not_inside`), and locking, unlocking
and moving about inside keep it that way.
-/

/-- Only the holder of the mutex is inside. -/
def Excludes {κ : Type*} (m : Option κ) (inside : κ → Prop) : Prop := ∀ k, inside k → m = some k

namespace Excludes

variable {κ : Type*} {m m' : Option κ} {inside inside' : κ → Prop} {j k : κ}

theorem unique (h : Excludes m inside) (hj : inside j) (hk : inside k) : j = k :=
  Option.some.inj ((h j hj).symm.trans (h k hk))

theorem not_inside (h : Excludes none inside) (k : κ) : ¬ inside k := fun hk => nomatch h k hk

/-- Nobody enters. -/
theorem mono (h : Excludes m inside) (hsub : ∀ j, inside' j → inside j) : Excludes m inside' :=
  fun j hj => h j (hsub j hj)

/-- `k` takes the free mutex and enters. -/
theorem lock (h : Excludes none inside) (hsub : ∀ j, inside' j → inside j ∨ j = k) :
    Excludes (some k) inside' := by
  intro j hj
  rcases hsub j hj with hold | rfl
  · exact absurd hold (h.not_inside j)
  · rfl

/-- `k` leaves, after which nobody is inside. -/
theorem unlock (h : Excludes m inside) (hk : inside k)
    (hsub : ∀ j, inside' j → inside j ∧ j ≠ k) : Excludes m' inside' := by
  intro j hj
  obtain ⟨hold, hne⟩ := hsub j hj
  exact absurd (h.unique hold hk) hne

end Excludes
