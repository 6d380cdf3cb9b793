import Mathlib.Data.List.Basic
import Mathlib.Tactic.Cases

/-!
# Machines driven by a schedule

A machine has a partial deterministic step: in a state an action is either enabled, and then
determines the next state and the outputs of the step, or it is not. All nondeterminism
(which process runs next, when a signal arrives, whether a copy faults) is in the list of actions,
so a statement about every list of actions is a statement about every run.

* `System.exec` runs a list of actions and collects the outputs, the history of the run;
* `System.exec_induction` is the invariant rule for a relation between state and history;
* `System.exec_simulation` finds the run of another machine that has the same history;
* `System.Lockstep` says that two machines take the same steps from related states, and
  `System.Lockstep.exec` and `System.Lockstep.along` carry runs over from one to the other;
* `System.Along` says that every step of a run meets a condition on the state before it and the
  action, and `System.exec_induction_along` is the invariant rule for such runs;
* `System.Always` says that every state of a run meets a condition, and
  `System.always_iff_along` finds the steps on which that depends; `System.Throughout` and
  `System.throughout_iff_along` do the same for a condition on state and history.
-/

/-- A machine with states `σ`, actions `α` and outputs `ε`. -/
structure System (σ α ε : Type*) where
  step : σ → α → Option (σ × List ε)

namespace System

variable {σ α ε : Type*} (S : System σ α ε)

/-- Run a list of actions; `none` as soon as an action is not enabled. -/
def exec : σ → List α → Option (σ × List ε)
  | s, [] => some (s, [])
  | s, a :: as =>
      (S.step s a).bind fun r => (exec r.1 as).map fun q => (q.1, r.2 ++ q.2)

/-- Every step of the run of `as` from `s` meets `P`. -/
def Along (P : σ → α → Prop) : σ → List α → Prop
  | _, [] => True
  | s, a :: as => P s a ∧ ∀ s' out, S.step s a = some (s', out) → Along P s' as

/-- Every state of the run of `as` from `s` meets `Q`. -/
def Always (Q : σ → Prop) : σ → List α → Prop
  | s, [] => Q s
  | s, a :: as => Q s ∧ ∀ s' out, S.step s a = some (s', out) → Always Q s' as

/-- Every state of the run of `as` from `s`, with the history so far, which starts with `log`, meets
`Q`. -/
def Throughout (Q : σ → List ε → Prop) : σ → List ε → List α → Prop
  | s, log, [] => Q s log
  | s, log, a :: as =>
      Q s log ∧ ∀ s' out, S.step s a = some (s', out) → Throughout Q s' (log ++ out) as

variable {S}

@[simp] theorem exec_nil (s : σ) : S.exec s [] = some (s, []) := rfl

theorem exec_cons {s s'' : σ} {a : α} {as : List α} {log : List ε} :
    S.exec s (a :: as) = some (s'', log) ↔
      ∃ s' out outs, S.step s a = some (s', out) ∧ S.exec s' as = some (s'', outs) ∧
        log = out ++ outs := by
  simp only [exec, Option.bind_eq_some_iff, Option.map_eq_some_iff, Prod.mk.injEq, Prod.exists]
  constructor
  · rintro ⟨s', out, hstep, t, outs, hrun, rfl, rfl⟩
    exact ⟨s', out, outs, hstep, hrun, rfl⟩
  · rintro ⟨s', out, outs, hstep, hrun, rfl⟩
    exact ⟨s', out, hstep, s'', outs, hrun, rfl, rfl⟩

/-- A run can be continued by another. -/
theorem exec_append {s s' s'' : σ} {as bs : List α} {log log' : List ε}
    (has : S.exec s as = some (s', log)) (hbs : S.exec s' bs = some (s'', log')) :
    S.exec s (as ++ bs) = some (s'', log ++ log') := by
  induction as generalizing s log with
  | nil =>
    simp only [exec_nil, Option.some.injEq, Prod.mk.injEq] at has
    obtain ⟨rfl, rfl⟩ := has
    exact hbs
  | cons a as ih =>
    obtain ⟨t, out, outs, hstep, hrest, rfl⟩ := exec_cons.1 has
    exact exec_cons.2 ⟨t, out, outs ++ log', hstep, ih hrest, List.append_assoc _ _ _⟩

/-- The invariant rule for a run that continues the history `log₀`. -/
theorem exec_induction_from {P : σ → α → Prop} {I : σ → List ε → Prop}
    (hI : ∀ s log a s' out, I s log → P s a → S.step s a = some (s', out) → I s' (log ++ out))
    {s s' : σ} {as : List α} {log₀ log : List ε} (h0 : I s log₀) (hP : S.Along P s as)
    (hrun : S.exec s as = some (s', log)) : I s' (log₀ ++ log) := by
  induction as generalizing s log₀ log with
  | nil => simp only [exec_nil, Option.some.injEq, Prod.mk.injEq] at hrun
           obtain ⟨rfl, rfl⟩ := hrun
           simpa using h0
  | cons a as ih =>
    obtain ⟨t, out, outs, hstep, hrest, rfl⟩ := exec_cons.1 hrun
    have ht : I t (log₀ ++ out) := hI s log₀ a t out h0 hP.1 hstep
    simpa using ih ht (hP.2 t out hstep) hrest

/-- The invariant rule along a run whose steps meet `P`: a relation between the state and the
history that holds at the start and is kept by every such step holds at the end. -/
theorem exec_induction_along {P : σ → α → Prop} {I : σ → List ε → Prop}
    (hI : ∀ s log a s' out, I s log → P s a → S.step s a = some (s', out) → I s' (log ++ out))
    {s s' : σ} {as : List α} {log : List ε} (h0 : I s []) (hP : S.Along P s as)
    (hrun : S.exec s as = some (s', log)) : I s' log :=
  exec_induction_from hI h0 hP hrun

theorem along_true (s : σ) (as : List α) : S.Along (fun _ _ => True) s as := by
  induction as generalizing s with
  | nil => trivial
  | cons a as ih => exact ⟨trivial, fun s' _ _ => ih s'⟩

/-- The first step of a run and the others. -/
theorem along_cons {P : σ → α → Prop} {s t : σ} {a : α} {as : List α} {out : List ε}
    (hstep : S.step s a = some (t, out)) : S.Along P s (a :: as) ↔ P s a ∧ S.Along P t as := by
  refine and_congr_right fun _ => ⟨fun h => h t out hstep, fun h t' out' hstep' => ?_⟩
  rw [hstep] at hstep'
  cases hstep'
  exact h

/-- Whether the steps of a run meet a condition that can be computed. -/
instance decidableAlong (P : σ → α → Prop) [∀ s a, Decidable (P s a)] :
    ∀ (s : σ) (as : List α), Decidable (S.Along P s as)
  | _, [] => .isTrue trivial
  | s, a :: as =>
      match h : S.step s a with
      | none => decidable_of_iff (P s a)
          ⟨fun hP => ⟨hP, fun s' out hstep => by rw [h] at hstep; cases hstep⟩, And.left⟩
      | some (t, _) =>
          have := decidableAlong P t as
          decidable_of_iff (P s a ∧ S.Along P t as) (along_cons h).symm

theorem Along.mono {P Q : σ → α → Prop} (h : ∀ s a, P s a → Q s a) {s : σ} {as : List α}
    (hP : S.Along P s as) : S.Along Q s as := by
  induction as generalizing s with
  | nil => trivial
  | cons a as ih => exact ⟨h s a hP.1, fun t out hstep => ih (hP.2 t out hstep)⟩

theorem Along.and {P Q : σ → α → Prop} {s : σ} {as : List α} (hP : S.Along P s as)
    (hQ : S.Along Q s as) : S.Along (fun s a => P s a ∧ Q s a) s as := by
  induction as generalizing s with
  | nil => trivial
  | cons a as ih =>
    exact ⟨⟨hP.1, hQ.1⟩, fun t out hstep => ih (hP.2 t out hstep) (hQ.2 t out hstep)⟩

/-- A condition on the actions alone. -/
theorem along_of_forall {Q : α → Prop} {as : List α} (h : ∀ a ∈ as, Q a) (s : σ) :
    S.Along (fun _ a => Q a) s as := by
  induction as generalizing s with
  | nil => trivial
  | cons a as ih =>
    exact ⟨h a List.mem_cons_self, fun s' _ _ => ih (fun b hb => h b (List.mem_cons_of_mem a hb)) s'⟩

/-- The invariant rule: a relation between the state and the history that holds at the start and
is kept by every step holds at the end of every run. -/
theorem exec_induction {I : σ → List ε → Prop}
    (hI : ∀ s log a s' out, I s log → S.step s a = some (s', out) → I s' (log ++ out))
    {s s' : σ} {as : List α} {log : List ε} (h0 : I s [])
    (hrun : S.exec s as = some (s', log)) : I s' log :=
  exec_induction_along (fun s log a s' out h _ => hI s log a s' out h) h0 (along_true s as) hrun

/-- **Simulation**: when each step of a machine is matched by a run of another that has the same
outputs, each of its runs is. `M` relates the actions of the two runs. -/
theorem exec_simulation {τ β : Type*} {T : System τ β ε} {R : σ → τ → Prop}
    {M : List α → List β → Prop} (hM₀ : M [] [])
    (hM : ∀ as as' bs bs', M as bs → M as' bs' → M (as ++ as') (bs ++ bs'))
    (hR : ∀ s t a s' out, R s t → S.step s a = some (s', out) →
      ∃ bs t', T.exec t bs = some (t', out) ∧ R s' t' ∧ M [a] bs)
    {s s' : σ} {t : τ} {as : List α} {log : List ε} (h0 : R s t)
    (hrun : S.exec s as = some (s', log)) :
    ∃ bs t', T.exec t bs = some (t', log) ∧ R s' t' ∧ M as bs := by
  induction as generalizing s t log with
  | nil =>
    simp only [exec_nil, Option.some.injEq, Prod.mk.injEq] at hrun
    obtain ⟨rfl, rfl⟩ := hrun
    exact ⟨[], t, rfl, h0, hM₀⟩
  | cons a as ih =>
    obtain ⟨s₁, out, outs, hstep, hrest, rfl⟩ := exec_cons.1 hrun
    obtain ⟨bs, t₁, hbs, h1, hfirst⟩ := hR s t a s₁ out h0 hstep
    obtain ⟨cs, t', hcs, hlast, hothers⟩ := ih h1 hrest
    exact ⟨bs ++ cs, t', exec_append hbs hcs, hlast, hM [a] as bs cs hfirst hothers⟩

/-- Two machines take the same steps: an action of the first is enabled exactly when its image `f a` is
enabled in the second, and both lead from related states to related states. The outputs of the first
are the images of those of the second. -/
def Lockstep {τ β δ : Type*} (S : System σ α ε) (T : System τ β δ) (R : σ → τ → Prop) (f : α → β)
    (g : δ → ε) : Prop :=
  ∀ s t a, R s t → Option.Rel (fun x y => R x.1 y.1 ∧ x.2 = y.2.map g) (S.step s a) (T.step t (f a))

section Lockstep

variable {τ β δ : Type*} {T : System τ β δ} {R : σ → τ → Prop} {f : α → β} {g : δ → ε} {s s' : σ}
  {t : τ} {a : α} {as : List α} {out log : List ε}

/-- A step of the first machine is one of the second. -/
theorem Lockstep.step (h : S.Lockstep T R f g) (h0 : R s t) (hstep : S.step s a = some (s', out)) :
    ∃ t' out', T.step t (f a) = some (t', out') ∧ R s' t' ∧ out = out'.map g := by
  have hrel := h s t a h0
  rw [hstep] at hrel
  cases hT : T.step t (f a) with
  | none =>
    rw [hT] at hrel
    cases hrel
  | some y =>
    rw [hT] at hrel
    cases hrel with
    | some hy => exact ⟨y.1, y.2, rfl, hy.1, hy.2⟩

/-- An action that the first machine does not allow is not allowed by the second. -/
theorem Lockstep.stuck (h : S.Lockstep T R f g) (h0 : R s t) (hstep : S.step s a = none) :
    T.step t (f a) = none := by
  have hrel := h s t a h0
  rw [hstep] at hrel
  cases hT : T.step t (f a) with
  | none => rfl
  | some y =>
    rw [hT] at hrel
    cases hrel

/-- A run of the first machine is one of the second. -/
theorem Lockstep.exec (h : S.Lockstep T R f g) (h0 : R s t)
    (hrun : S.exec s as = some (s', log)) :
    ∃ t' log', T.exec t (as.map f) = some (t', log') ∧ R s' t' ∧ log = log'.map g := by
  induction as generalizing s t log with
  | nil =>
    simp only [exec_nil, Option.some.injEq, Prod.mk.injEq] at hrun
    obtain ⟨rfl, rfl⟩ := hrun
    exact ⟨t, [], rfl, h0, rfl⟩
  | cons a as ih =>
    obtain ⟨s₁, out, outs, hstep, hrest, rfl⟩ := exec_cons.1 hrun
    obtain ⟨t₁, out', hT, h1, rfl⟩ := h.step h0 hstep
    obtain ⟨t', outs', hTs, hlast, rfl⟩ := ih h1 hrest
    exact ⟨t', out' ++ outs', exec_cons.2 ⟨t₁, out', outs', hT, hTs, rfl⟩, hlast,
      (List.map_append ..).symm⟩

/-- What holds along the run of the second machine holds along that of the first. -/
theorem Lockstep.along (h : S.Lockstep T R f g) {P : σ → α → Prop} {Q : τ → β → Prop}
    (hQP : ∀ s t a, R s t → Q t (f a) → P s a) (h0 : R s t) (hQ : T.Along Q t (as.map f)) :
    S.Along P s as := by
  induction as generalizing s t with
  | nil => trivial
  | cons a as ih =>
    refine ⟨hQP s t a h0 hQ.1, fun s₁ out hstep => ?_⟩
    obtain ⟨t₁, out', hT, h1, -⟩ := h.step h0 hstep
    exact ih h1 (hQ.2 t₁ out' hT)

end Lockstep

theorem Always.start {Q : σ → Prop} {s : σ} {as : List α} (h : S.Always Q s as) : Q s := by
  cases as with
  | nil => exact h
  | cons a as => exact h.1

/-- The last state of a run is one of its states. -/
theorem Always.last {Q : σ → Prop} {s s' : σ} {as : List α} {log : List ε} (h : S.Always Q s as)
    (hrun : S.exec s as = some (s', log)) : Q s' := by
  induction as generalizing s log with
  | nil =>
    simp only [exec_nil, Option.some.injEq, Prod.mk.injEq] at hrun
    exact hrun.1 ▸ h
  | cons a as ih =>
    obtain ⟨t, out, outs, hstep, hrest, -⟩ := exec_cons.1 hrun
    exact ih (h.2 t out hstep) hrest

/-- An invariant that the steps meeting `P` keep holds in every state of a run of such steps. -/
theorem always_of_along {J : σ → Prop} {P : σ → α → Prop}
    (hJ : ∀ s a s' out, J s → P s a → S.step s a = some (s', out) → J s') {s : σ} {as : List α}
    (h0 : J s) (hP : S.Along P s as) : S.Always J s as := by
  induction as generalizing s with
  | nil => exact h0
  | cons a as ih => exact ⟨h0, fun t out hstep => ih (hJ s a t out h0 hP.1 hstep) (hP.2 t out hstep)⟩

/-- If a step can lead to `Q` only by meeting `P`, then the steps of a run that stays in `Q` do. -/
theorem along_of_always {Q : σ → Prop} {P : σ → α → Prop}
    (hP : ∀ s a s' out, S.step s a = some (s', out) → Q s' → P s a) {s s' : σ} {as : List α}
    {log : List ε} (hQ : S.Always Q s as) (hrun : S.exec s as = some (s', log)) :
    S.Along P s as := by
  induction as generalizing s log with
  | nil => trivial
  | cons a as ih =>
    obtain ⟨t, out, outs, hstep, hrest, -⟩ := exec_cons.1 hrun
    have ht := hQ.2 t out hstep
    refine ⟨hP s a t out hstep ht.start, fun t' out' hstep' => ?_⟩
    rw [hstep] at hstep'
    cases hstep'
    exact ih ht hrest

/-- The states before the steps of a run are among its states. -/
theorem Always.along {Q : σ → Prop} {s : σ} {as : List α} (h : S.Always Q s as) :
    S.Along (fun s _ => Q s) s as := by
  induction as generalizing s with
  | nil => trivial
  | cons a as ih => exact ⟨h.1, fun t out hstep => ih (h.2 t out hstep)⟩

theorem Throughout.start {Q : σ → List ε → Prop} {s : σ} {log : List ε} {as : List α}
    (h : S.Throughout Q s log as) : Q s log := by
  cases as with
  | nil => exact h
  | cons a as => exact h.1

/-- A condition on the states alone. -/
theorem always_iff_throughout {Q : σ → Prop} {s : σ} (log : List ε) {as : List α} :
    S.Always Q s as ↔ S.Throughout (fun s _ => Q s) s log as := by
  induction as generalizing s log with
  | nil => exact Iff.rfl
  | cons a as ih =>
    constructor
    · exact fun h => ⟨h.1, fun s' out hstep => (ih (log ++ out)).1 (h.2 s' out hstep)⟩
    · exact fun h => ⟨h.1, fun s' out hstep => (ih (log ++ out)).2 (h.2 s' out hstep)⟩

theorem Always.mono {Q R : σ → Prop} (h : ∀ s, Q s → R s) {s : σ} {as : List α}
    (hQ : S.Always Q s as) : S.Always R s as := by
  induction as generalizing s with
  | nil => exact h s hQ
  | cons a as ih => exact ⟨h s hQ.1, fun t out hstep => ih (hQ.2 t out hstep)⟩

/-- **The steps on which a property depends**: `Q` follows from an invariant `J` that every step
meeting `P` keeps, and a step that does not meet `P` leads out of `Q`. Then all states of a run are
in `Q` exactly when all its steps meet `P`. -/
theorem always_iff_along {J Q : σ → Prop} {P : σ → α → Prop} (hJQ : ∀ s, J s → Q s)
    (hJ : ∀ s a s' out, J s → P s a → S.step s a = some (s', out) → J s')
    (hP : ∀ s a s' out, S.step s a = some (s', out) → Q s' → P s a) {s s' : σ} {as : List α}
    {log : List ε} (h0 : J s) (hrun : S.exec s as = some (s', log)) :
    S.Always Q s as ↔ S.Along P s as :=
  ⟨fun hQ => along_of_always hP hQ hrun, fun halong => (always_of_along hJ h0 halong).mono hJQ⟩

/-- The same for a relation `Q` between the state and the history of the run so far, in the runs whose
steps meet `R`, when an invariant `W` of these runs makes the steps that meet `P` exactly those that
stay in `Q`. -/
theorem throughout_iff_along_of_along {W : σ → Prop} {Q : σ → List ε → Prop} {R P : σ → α → Prop}
    (hW : ∀ s a s' out, W s → R s a → S.step s a = some (s', out) → W s')
    (hQ : ∀ s log a s' out, W s → R s a → Q s log → S.step s a = some (s', out) →
      (Q s' (log ++ out) ↔ P s a))
    {s s' : σ} {as : List α} {log₀ log : List ε} (hW₀ : W s) (hQ₀ : Q s log₀) (hR : S.Along R s as)
    (hrun : S.exec s as = some (s', log)) : S.Throughout Q s log₀ as ↔ S.Along P s as := by
  induction as generalizing s log₀ log with
  | nil => exact iff_of_true hQ₀ trivial
  | cons a as ih =>
    obtain ⟨t, out, outs, hstep, hrest, -⟩ := exec_cons.1 hrun
    have hnext := hQ s log₀ a t out hW₀ hR.1 hQ₀ hstep
    have hWt := hW s a t out hW₀ hR.1 hstep
    have hRt := hR.2 t out hstep
    have honly : ∀ t' out', S.step s a = some (t', out') → t' = t ∧ out' = out := fun t' out' h => by
      rw [hstep] at h
      cases h
      exact ⟨rfl, rfl⟩
    constructor
    · rintro ⟨-, hall⟩
      have ht := hall t out hstep
      refine ⟨hnext.1 ht.start, fun t' out' hstep' => ?_⟩
      rw [(honly t' out' hstep').1]
      exact (ih hWt ht.start hRt hrest).1 ht
    · rintro ⟨hP, hall⟩
      refine ⟨hQ₀, fun t' out' hstep' => ?_⟩
      rw [(honly t' out' hstep').1, (honly t' out' hstep').2]
      exact (ih hWt (hnext.2 hP) hRt hrest).2 (hall t out hstep)

/-- The same for every run. -/
theorem throughout_iff_along {W : σ → Prop} {Q : σ → List ε → Prop} {P : σ → α → Prop}
    (hW : ∀ s a s' out, W s → S.step s a = some (s', out) → W s')
    (hQ : ∀ s log a s' out, W s → Q s log → S.step s a = some (s', out) →
      (Q s' (log ++ out) ↔ P s a))
    {s s' : σ} {as : List α} {log₀ log : List ε} (hW₀ : W s) (hQ₀ : Q s log₀)
    (hrun : S.exec s as = some (s', log)) : S.Throughout Q s log₀ as ↔ S.Along P s as :=
  throughout_iff_along_of_along (fun s a s' out h _ => hW s a s' out h)
    (fun s log a s' out h _ => hQ s log a s' out h) hW₀ hQ₀ (along_true s as) hrun

/-- An invariant between state and history that the steps meeting `P` keep holds throughout a run of
such steps. -/
theorem throughout_of_along {J Q : σ → List ε → Prop} {P : σ → α → Prop}
    (hJQ : ∀ s log, J s log → Q s log)
    (hJ : ∀ s log a s' out, J s log → P s a → S.step s a = some (s', out) → J s' (log ++ out)) {s : σ}
    {log : List ε} {as : List α} (h0 : J s log) (hP : S.Along P s as) : S.Throughout Q s log as := by
  induction as generalizing s log with
  | nil => exact hJQ s log h0
  | cons a as ih =>
    exact ⟨hJQ s log h0, fun t out hstep => ih (hJ s log a t out h0 hP.1 hstep) (hP.2 t out hstep)⟩

/-- The last state of a run and its whole history. -/
theorem Throughout.last {Q : σ → List ε → Prop} {s s' : σ} {log₀ log : List ε} {as : List α}
    (h : S.Throughout Q s log₀ as) (hrun : S.exec s as = some (s', log)) : Q s' (log₀ ++ log) := by
  induction as generalizing s log₀ log with
  | nil =>
    simp only [exec_nil, Option.some.injEq, Prod.mk.injEq] at hrun
    obtain ⟨rfl, rfl⟩ := hrun
    rw [List.append_nil]
    exact h
  | cons a as ih =>
    obtain ⟨t, out, outs, hstep, hrest, rfl⟩ := exec_cons.1 hrun
    rw [← List.append_assoc]
    exact ih (h.2 t out hstep) hrest

/-- A property that is lost for good at the steps that do not meet `P`, and at no other, in the runs
whose steps meet `R`. -/
theorem iff_along_of_step_of_along {I Q : σ → List ε → Prop} {R P : σ → α → Prop}
    (hI : ∀ s log a s' out, I s log → R s a → S.step s a = some (s', out) → I s' (log ++ out))
    (hQ : ∀ s log a s' out, I s log → R s a → S.step s a = some (s', out) →
      (Q s' (log ++ out) ↔ Q s log ∧ P s a))
    {s s' : σ} {as : List α} {log₀ log : List ε} (h0 : I s log₀) (hR : S.Along R s as)
    (hrun : S.exec s as = some (s', log)) :
    Q s' (log₀ ++ log) ↔ Q s log₀ ∧ S.Along P s as := by
  induction as generalizing s log₀ log with
  | nil =>
    simp only [exec_nil, Option.some.injEq, Prod.mk.injEq] at hrun
    obtain ⟨rfl, rfl⟩ := hrun
    rw [List.append_nil]
    exact ⟨fun h => ⟨h, trivial⟩, And.left⟩
  | cons a as ih =>
    obtain ⟨t, out, outs, hstep, hrest, rfl⟩ := exec_cons.1 hrun
    rw [← List.append_assoc, ih (hI s log₀ a t out h0 hR.1 hstep) (hR.2 t out hstep) hrest,
      hQ s log₀ a t out h0 hR.1 hstep, along_cons hstep, and_assoc]

/-- The same in every run. -/
theorem iff_along_of_step {I Q : σ → List ε → Prop} {P : σ → α → Prop}
    (hI : ∀ s log a s' out, I s log → S.step s a = some (s', out) → I s' (log ++ out))
    (hQ : ∀ s log a s' out, I s log → S.step s a = some (s', out) →
      (Q s' (log ++ out) ↔ Q s log ∧ P s a))
    {s s' : σ} {as : List α} {log₀ log : List ε} (h0 : I s log₀)
    (hrun : S.exec s as = some (s', log)) :
    Q s' (log₀ ++ log) ↔ Q s log₀ ∧ S.Along P s as :=
  iff_along_of_step_of_along (fun s log a s' out h _ => hI s log a s' out h)
    (fun s log a s' out h _ => hQ s log a s' out h) h0 (along_true s as) hrun

/-- The same for a property of states, in the runs whose steps meet `R`. -/
theorem always_iff_along_of_along {W Q : σ → Prop} {R P : σ → α → Prop}
    (hW : ∀ s a s' out, W s → R s a → S.step s a = some (s', out) → W s')
    (hQ : ∀ s a s' out, W s → R s a → Q s → S.step s a = some (s', out) → (Q s' ↔ P s a)) {s s' : σ}
    {as : List α} {log : List ε} (hW₀ : W s) (hQ₀ : Q s) (hR : S.Along R s as)
    (hrun : S.exec s as = some (s', log)) : S.Always Q s as ↔ S.Along P s as :=
  (always_iff_throughout []).trans
    (throughout_iff_along_of_along (Q := fun s _ => Q s) hW (fun s _ a s' out => hQ s a s' out) hW₀
      hQ₀ hR hrun)

/-- The same in every run. -/
theorem always_iff_along_of_step {W Q : σ → Prop} {P : σ → α → Prop}
    (hW : ∀ s a s' out, W s → S.step s a = some (s', out) → W s')
    (hQ : ∀ s a s' out, W s → Q s → S.step s a = some (s', out) → (Q s' ↔ P s a)) {s s' : σ}
    {as : List α} {log : List ε} (hW₀ : W s) (hQ₀ : Q s)
    (hrun : S.exec s as = some (s', log)) : S.Always Q s as ↔ S.Along P s as :=
  always_iff_along_of_along (fun s a s' out h _ => hW s a s' out h)
    (fun s a s' out h _ => hQ s a s' out h) hW₀ hQ₀ (along_true s as) hrun

end System
