import IldDrivers.Lib.Transition
import Mathlib.Data.List.Basic

/-!
# Histories

A statement about every entry of a history, in terms of the entries before it.

* `System.each_iff_eachAfter`: what a machine makes of its steps, told from its history.
-/

namespace History

variable {α : Type*}

/-- Every entry of the history stands in the relation `P` to the history before it. -/
def EachAfter (P : List α → α → Prop) (l : List α) : Prop :=
  ∀ before a after, l = before ++ a :: after → P before a

variable {P : List α → α → Prop}

theorem eachAfter_nil : EachAfter P [] := by
  intro before a after h
  exact absurd h.symm (by simp)

/-- The rule for a history that grows at its end. -/
theorem eachAfter_snoc {l : List α} {a : α} :
    EachAfter P (l ++ [a]) ↔ EachAfter P l ∧ P l a := by
  constructor
  · intro h
    refine ⟨fun before b after hl => h before b (after ++ [a]) ?_, h l a [] rfl⟩
    rw [hl, List.append_assoc, List.cons_append]
  · rintro ⟨hl, ha⟩ before b after heq
    rcases List.eq_nil_or_concat after with rfl | ⟨rest, c, rfl⟩
    · obtain ⟨rfl, hb⟩ := List.append_inj' heq rfl
      cases hb
      exact ha
    · rw [List.concat_eq_append, ← List.cons_append, ← List.append_assoc] at heq
      exact hl before b rest (List.append_inj_left' heq rfl)

/-- The entries by their places. -/
theorem eachAfter_iff_getElem {l : List α} :
    EachAfter P l ↔ ∀ i, (hi : i < l.length) → P (l.take i) l[i] := by
  constructor
  · intro h i hi
    exact h (l.take i) l[i] (l.drop (i + 1)) (by simp)
  · rintro h before a after rfl
    have hplace := h before.length (by simp)
    simpa using hplace

instance (l : List α) [∀ l a, Decidable (P l a)] : Decidable (EachAfter P l) :=
  decidable_of_iff _ eachAfter_iff_getElem.symm

end History

/-- **A property of the outputs of a machine, in terms of the history**: when, in the states that an
invariant allows, a step has one output at most, and this has the property `Q` exactly when it stands
in the relation `P` to the history before it, then all outputs of a run have the property exactly
when all do. -/
theorem System.each_iff_eachAfter {σ α ε : Type*} {S : System σ α ε} {I : σ → List ε → Prop}
    {Q : ε → Prop} {P : List ε → ε → Prop}
    (hI : ∀ s log a s' out, I s log → S.step s a = some (s', out) → I s' (log ++ out))
    (hQ : ∀ s log a s' out, I s log → S.step s a = some (s', out) →
      out = [] ∨ ∃ e, out = [e] ∧ (Q e ↔ P log e))
    {s s' : σ} {as : List α} {log : List ε} (h0 : I s []) (hrun : S.exec s as = some (s', log)) :
    (∀ e ∈ log, Q e) ↔ History.EachAfter P log := by
  refine (exec_induction
    (I := fun s log => I s log ∧ ((∀ e ∈ log, Q e) ↔ History.EachAfter P log)) ?_
    ⟨h0, iff_of_true (fun _ he => absurd he List.not_mem_nil) History.eachAfter_nil⟩ hrun).2
  rintro s log a s' out ⟨hs, hiff⟩ hstep
  refine ⟨hI s log a s' out hs hstep, ?_⟩
  rcases hQ s log a s' out hs hstep with rfl | ⟨e, rfl, he⟩
  · rw [List.append_nil]
    exact hiff
  · rw [History.eachAfter_snoc, ← hiff, ← he, List.forall_mem_append, List.forall_mem_singleton]
