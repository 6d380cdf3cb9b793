import IldDrivers.Locks.Collisions
import Mathlib.Data.Finset.Card

/-!
# What a dot is worth (`example-IV-07`, `example-IV-08`)

The reads of `example-IV-07` take no lock, but each of them lets ten ticks pass between the store of its
number and the comparison, and a dot says that nobody else has stored a number in the meantime. So
the dots alone are as far apart as they would be with a mutex.

* `Undisturbed`: a statement that is not the store of another process;
* `dot_iff_undisturbed`: the character is a dot exactly if there have been only such statements;
* `Clocked`: what is known of the time of the last store, and of the dots that have been chosen;
* `dots_apart`: ten ticks pass for each dot.
-/

namespace IldDrivers.ExampleIV

variable {K : Type*}

/-! ### What is expected -/

/-- A process executes the store of its number. -/
def Stores (j : K) (s : State K) : Act K → Prop
  | .run i _ => i = j ∧ ∃ length, s.pc j = .setPid length
  | _ => False

/-- No other process stores its number. -/
def Undisturbed (k : K) (s : State K) (a : Act K) : Prop := ∀ j, j ≠ k → ¬ Stores j s a

/-- The ticks of the clock. -/
def Act.ticks : Act K → ℕ
  | .tick => 1
  | _ => 0

def ticks (acts : List (Act K)) : ℕ := (acts.map Act.ticks).sum

/-- A call has copied a dot. -/
def Event.dots : Event K → ℕ
  | .unlocked _ _ => 0
  | .returned _ _ bytes _ => if bytes.head? = some dot then 1 else 0

def dots (log : List (Event K)) : ℕ := (log.map Event.dots).sum

@[simp] theorem ticks_nil : ticks ([] : List (Act K)) = 0 := rfl

@[simp] theorem ticks_cons (a : Act K) (acts : List (Act K)) :
    ticks (a :: acts) = a.ticks + ticks acts := by
  rw [ticks, List.map_cons, List.sum_cons]
  rfl

@[simp] theorem dots_nil : dots ([] : List (Event K)) = 0 := rfl

@[simp] theorem dots_append (log out : List (Event K)) : dots (log ++ out) = dots log + dots out := by
  rw [dots, List.map_append, List.sum_append]
  rfl

/-! ### One process -/

section OneProcess

variable [DecidableEq K] {u : Setup K} {s s' : State K} {k : K} {a : Act K} {out : List (Event K)}

theorem State.setPc_self (s : State K) (k : K) (p : Pc) : (s.setPc k p).pc k = p := by
  simp [State.setPc]

theorem State.setPc_of_ne (s : State K) {j k : K} (hne : j ≠ k) (p : Pc) :
    (s.setPc k p).pc j = s.pc j := by
  simp [State.setPc, hne]

/-- What a statement does to the variable. -/
theorem currentPid_runPc {j : K} {copied : ℕ}
    (hstep : runPc u s j copied (s.pc j) = some (s', out)) :
    s'.currentPid = s.currentPid ∨ (s'.currentPid = u.pid j ∧ ∃ length, s.pc j = .setPid length) := by
  cases hpc : s.pc j with
  | setPid length =>
    rw [hpc] at hstep
    cases hstep
    exact .inr ⟨rfl, length, rfl⟩
  | lock length =>
    rw [hpc] at hstep
    simp only [runPc] at hstep
    split_ifs at hstep
    cases hstep
    exact .inl rfl
  | loop length delay =>
    rw [hpc] at hstep
    simp only [runPc] at hstep
    split_ifs at hstep
    all_goals
      cases hstep
      exact .inl rfl
  | idle | setDelay | compare | unlock | reply =>
    rw [hpc] at hstep
    cases hstep <;> exact .inl rfl

/-- The variable only changes where a process stores its number. -/
theorem currentPid_step (hstep : step u s a = some (s', out)) :
    s'.currentPid = s.currentPid ∨ ∃ j, s'.currentPid = u.pid j ∧ Stores j s a := by
  cases a with
  | call j length =>
    simp only [step] at hstep
    split at hstep
    · cases hstep
      exact .inl rfl
    · cases hstep
  | signal j =>
    simp only [step] at hstep
    split at hstep
    · cases hstep
      exact .inl rfl
    · cases hstep
  | run j copied =>
    rcases currentPid_runPc hstep with hsame | ⟨hstored, hpc⟩
    · exact .inl hsame
    · exact .inr ⟨j, hstored, rfl, hpc⟩
  | tick =>
    cases hstep
    exact .inl rfl

/-- A process finds its number after a step exactly if it would have found it before, and no other
process has stored its own. -/
theorem own_step (hpid : Function.Injective u.pid) (hstored : (s.pc k).Stored)
    (hstep : step u s a = some (s', out)) :
    s'.currentPid = u.pid k ↔ s.currentPid = u.pid k ∧ Undisturbed k s a := by
  have hnotMine : ¬ Stores k s a := by
    intro h
    cases a with
    | run i copied =>
      obtain ⟨-, length, hpc⟩ := h
      rw [hpc] at hstored
      exact hstored
    | call | signal | tick => exact h
  rcases currentPid_step hstep with hsame | ⟨j, hj, hstores⟩
  · rw [hsame]
    refine (and_iff_left_of_imp fun hown j hne hstores => ?_).symm
    -- a store of another process would have changed the variable
    cases a with
    | run i copied =>
      obtain ⟨rfl, length, hpc⟩ := hstores
      simp only [step, hpc] at hstep
      cases hstep
      exact hne (hpid (hsame.trans hown))
    | call | signal | tick => exact hstores
  · have hne : j ≠ k := by
      rintro rfl
      exact hnotMine hstores
    refine iff_of_false (fun h => hne (hpid (hj.symm.trans h))) fun h => h.2 j hne hstores

theorem own_run (hpid : Function.Injective u.pid) {acts : List (Act K)} {log : List (Event K)}
    (hrun : (system u).exec s acts = some (s', log))
    (hwaits : (system u).Along (fun s _ => (s.pc k).Stored) s acts) :
    s'.currentPid = u.pid k ↔ s.currentPid = u.pid k ∧ (system u).Along (Undisturbed k) s acts := by
  induction acts generalizing s log with
  | nil =>
    cases hrun
    exact (and_iff_left trivial).symm
  | cons a acts ih =>
    obtain ⟨t, out, outs, hstep, hrest, rfl⟩ := System.exec_cons.1 hrun
    rw [System.along_cons hstep, ← and_assoc, ← own_step hpid hwaits.1 hstep]
    exact ih hrest (hwaits.2 t out hstep)

/-- **What a dot says**: a process has stored its number, and comes to the comparison after any
statements of any processes. It chooses the dot exactly if no other process has stored its number in
the meantime. -/
theorem dot_iff_undisturbed (hpid : Function.Injective u.pid) {s₁ s₂ s₃ s₄ : State K}
    {acts : List (Act K)} {log out₁ out₂ : List (Event K)} {copied copied' length length' : ℕ}
    (hpc : s₁.pc k = .setPid length) (hstore : step u s₁ (.run k copied) = some (s₂, out₁))
    (hrun : (system u).exec s₂ acts = some (s₃, log))
    (hwaits : (system u).Along (fun s _ => (s.pc k).Stored) s₂ acts)
    (hcompare : s₃.pc k = .compare length')
    (hstep : step u s₃ (.run k copied') = some (s₄, out₂)) :
    (s₄.pc k).char = some dot ↔ (system u).Along (Undisturbed k) s₂ acts := by
  have hmine : s₂.currentPid = u.pid k := by
    simp only [step, hpc] at hstore
    cases hstore
    rfl
  have hown : s₃.currentPid = u.pid k ↔
      s₂.currentPid = u.pid k ∧ (system u).Along (Undisturbed k) s₂ acts :=
    own_run hpid hrun hwaits
  rw [and_iff_right hmine] at hown
  rw [← hown]
  simp only [step, hcompare] at hstep
  cases hstep
  rw [State.setPc_self]
  cases u.program with
  | iv07 => simp [Program.leave, Pc.char, dot, hash]
  | iv08 => simp [Program.leave, Pc.char, dot, hash]

end OneProcess

theorem twoProcesses_injective (program : Program) :
    Function.Injective (twoProcesses program).pid := by
  intro j k h
  revert h
  cases j <;> cases k <;> simp [twoProcesses]

deriving instance DecidableEq for Pc

instance (p : Pc) : Decidable p.Stored :=
  match p with
  | .setDelay _ | .loop _ _ | .compare _ => isTrue trivial
  | .idle | .lock _ | .setPid _ | .unlock _ _ | .reply _ _ => isFalse id

/-- Both processes call, and the second one stores its number. -/
def secondStores : List (Act Bool) := [.call true 2, .call false 2, .run false 0]

/-- The first one waits for ten ticks, and the second one sets its delay. -/
def firstWaits : List (Act Bool) :=
  [.run true 0, .run false 0] ++ List.replicate 10 .tick ++ [.run true 0]

theorem dot_iff_undisturbed_firstWaits :
    ∃ s₁ s₂ log₁ out₁,
      (system (twoProcesses .iv07)).exec (init 0 Bool) secondStores = some (s₁, log₁) ∧
      step (twoProcesses .iv07) s₁ (.run true 0) = some (s₂, out₁) ∧
      (system (twoProcesses .iv07)).Along (Undisturbed true) s₂ firstWaits := by
  obtain ⟨⟨s₁, log₁⟩, hbefore, hval⟩ := Option.map_eq_some_iff.1
    (show ((system (twoProcesses .iv07)).exec (init 0 Bool) secondStores).map
        (fun r => (decide (r.1.pc true = .setPid 2),
          (step (twoProcesses .iv07) r.1 (.run true 0)).map fun q =>
            (decide ((system (twoProcesses .iv07)).Along (fun s _ => (s.pc true).Stored) q.1
                firstWaits),
              ((system (twoProcesses .iv07)).exec q.1 firstWaits).map fun t =>
                (decide (t.1.pc true = .compare 2),
                  (step (twoProcesses .iv07) t.1 (.run true 2)).map fun v =>
                    decide ((v.1.pc true).char = some dot))))) =
      some (true, some (true, some (true, some true))) by decide +kernel)
  simp only [Prod.mk.injEq, decide_eq_true_eq] at hval
  obtain ⟨hpc, hval⟩ := hval
  obtain ⟨⟨s₂, out₁⟩, hstore, hval⟩ := Option.map_eq_some_iff.1 hval
  simp only [Prod.mk.injEq, decide_eq_true_eq] at hval
  obtain ⟨hwaits, hval⟩ := hval
  obtain ⟨⟨s₃, log₂⟩, hrun, hval⟩ := Option.map_eq_some_iff.1 hval
  simp only [Prod.mk.injEq, decide_eq_true_eq] at hval
  obtain ⟨hcompare, hval⟩ := hval
  obtain ⟨⟨s₄, out₂⟩, hstep, hchar⟩ := Option.map_eq_some_iff.1 hval
  exact ⟨s₁, s₂, log₁, out₁, hbefore, hstore,
    (dot_iff_undisturbed (twoProcesses_injective .iv07) hpc hstore hrun hwaits hcompare hstep).1
      (of_decide_eq_true hchar)⟩

/-! ### The time that a dot takes -/

/-- A delay that was set `e` ticks ago, for ten ticks. -/
def SetAgo (abi : Abi) (jiffies delay : ℤ) (e : ℕ) : Prop :=
  (2 : ℤ) ^ abi.longBits ∣ delay - jiffies - 10 + e

theorem setAgo_zero (abi : Abi) (jiffies : ℤ) : SetAgo abi jiffies (ulong abi (jiffies + 10)) 0 := by
  refine ⟨-((jiffies + 10) / 2 ^ abi.longBits), ?_⟩
  rw [ulong, Int.emod_def]
  push_cast
  ring

theorem SetAgo.tick {abi : Abi} {jiffies delay : ℤ} {e : ℕ} (h : SetAgo abi jiffies delay e) :
    SetAgo abi (ulong abi (jiffies + 1)) delay (e + 1) := by
  obtain ⟨q, hq⟩ := h
  refine ⟨q + (jiffies + 1) / 2 ^ abi.longBits, ?_⟩
  rw [ulong, Int.emod_def, Int.mul_add, ← hq]
  push_cast
  ring

/-- The loop does not end before. -/
theorem SetAgo.ten_le {abi : Abi} {jiffies delay : ℤ} {e : ℕ} (h : SetAgo abi jiffies delay e)
    (hend : ¬ timeBefore abi jiffies delay) : 10 ≤ e := by
  by_contra hlt
  obtain ⟨q, hq⟩ := h
  refine hend ?_
  have hdiff : jiffies - delay = ((e : ℤ) - 10) + (2 ^ abi.longBits : ℕ) * (-q) := by
    push_cast
    linarith
  rw [timeBefore, Abi.ssize, hdiff, Int.add_mul_bmod_self_left]
  have hsmall := abi.ssize_of_small (x := (e : ℤ) - 10) (by omega) (by omega)
  rw [Abi.ssize] at hsmall
  omega

/-- At this time, when the last number has been stored at time `stored`, these processes have chosen a
dot and have not copied it, and so many have copied one. -/
structure Clocked (u : Setup K) (s : State K) (time stored : ℕ) (chosen : Finset K) (copied : ℕ) :
    Prop where
  stored_le : stored ≤ time
  mem_chosen : ∀ k, (s.pc k).char = some dot → k ∈ chosen
  paid : 10 * (copied + chosen.card) ≤ time
  owner : ∀ k, (s.pc k).Stored → s.currentPid = u.pid k → 10 * (copied + chosen.card) ≤ stored
  loop : ∀ k length delay, s.pc k = .loop length delay → ∃ e : ℕ, SetAgo u.abi s.jiffies delay e ∧
    (s.currentPid = u.pid k → stored + e ≤ time)
  compare : ∀ k length, s.pc k = .compare length → s.currentPid = u.pid k → stored + 10 ≤ time

theorem clocked_init (u : Setup K) (jiffies : ℤ) : Clocked u (init jiffies K) 0 0 ∅ 0 := by
  refine ⟨le_rfl, ?_, le_rfl, ?_, ?_, ?_⟩
  · intro k h
    cases h
  · intro k h
    exact h.elim
  · intro k length delay h
    cases h
  · intro k length h
    cases h

section Dots

variable [DecidableEq K] {u : Setup K} {s s' : State K} {time stored copied : ℕ} {chosen : Finset K}
  {k : K} {p : Pc} {a : Act K} {out : List (Event K)}

omit [DecidableEq K] in
theorem Clocked.tick (h : Clocked u s time stored chosen copied) :
    Clocked u { s with jiffies := ulong u.abi (s.jiffies + 1) } (time + 1) stored chosen copied := by
  obtain ⟨hle, hchosen, hpaid, howner, hloop, hcompare⟩ := h
  refine ⟨by omega, hchosen, by omega, howner, ?_, ?_⟩
  · intro k length delay hpc
    obtain ⟨e, hago, hown⟩ := hloop k length delay hpc
    refine ⟨e + 1, hago.tick, fun hpid => ?_⟩
    have := hown hpid
    omega
  · intro k length hpc hpid
    have := hcompare k length hpc hpid
    omega

/-- One process moves on, with nothing to be said about the place it comes to. -/
theorem Clocked.move (h : Clocked u s time stored chosen copied) {mutex : Option K}
    (hstored : p.Stored → (s.pc k).Stored)
    (hchar : p.char = some dot → k ∈ chosen)
    (hloop : ∀ length delay, p = .loop length delay → ∃ e : ℕ, SetAgo u.abi s.jiffies delay e ∧
      (s.currentPid = u.pid k → stored + e ≤ time))
    (hcompare : ∀ length, p = .compare length → s.currentPid = u.pid k → stored + 10 ≤ time) :
    Clocked u { s.setPc k p with mutex } time stored chosen copied where
  stored_le := h.stored_le
  mem_chosen := (Function.forall_update_iff s.pc fun j q => q.char = some dot → j ∈ chosen).2
    ⟨hchar, fun j _ => h.mem_chosen j⟩
  paid := h.paid
  owner := (Function.forall_update_iff s.pc fun j q => q.Stored → s.currentPid = u.pid j →
      10 * (copied + chosen.card) ≤ stored).2
    ⟨fun hst => h.owner k (hstored hst), fun j _ => h.owner j⟩
  loop := (Function.forall_update_iff s.pc fun j q => ∀ length delay, q = .loop length delay →
      ∃ e : ℕ, SetAgo u.abi s.jiffies delay e ∧ (s.currentPid = u.pid j → stored + e ≤ time)).2
    ⟨hloop, fun j _ => h.loop j⟩
  compare := (Function.forall_update_iff s.pc fun j q => ∀ length, q = .compare length →
      s.currentPid = u.pid j → stored + 10 ≤ time).2 ⟨hcompare, fun j _ => h.compare j⟩

/-- One process moves on to a place where it has nothing stored and nothing chosen. -/
theorem Clocked.leave (h : Clocked u s time stored chosen copied) {mutex : Option K}
    (hstored : ¬ p.Stored) (hchar : p.char ≠ some dot) :
    Clocked u { s.setPc k p with mutex } time stored chosen copied := by
  refine h.move (fun hst => absurd hst hstored) (fun hc => absurd hc hchar) ?_ ?_
  · rintro length delay rfl
    exact absurd trivial hstored
  · rintro length rfl
    exact absurd trivial hstored

/-- A process stores its number. -/
theorem Clocked.store (h : Clocked u s time stored chosen copied) (hpid : Function.Injective u.pid)
    (length : ℕ) :
    Clocked u { s.setPc k (.setDelay length) with currentPid := u.pid k } time time chosen copied where
  stored_le := le_rfl
  mem_chosen := (Function.forall_update_iff s.pc fun j q => q.char = some dot → j ∈ chosen).2
    ⟨fun hc => (by cases hc), fun j _ => h.mem_chosen j⟩
  paid := h.paid
  owner := fun _ _ _ => h.paid
  loop := by
    -- whoever is in the loop is not the owner any more
    intro j length' delay hpc
    have hne : j ≠ k := by
      rintro rfl
      rw [State.setPc_self] at hpc
      cases hpc
    rw [State.setPc_of_ne s hne] at hpc
    obtain ⟨e, hago, -⟩ := h.loop j length' delay hpc
    exact ⟨e, hago, fun hown => absurd (hpid hown) (Ne.symm hne)⟩
  compare := by
    intro j length' hpc hown
    have hkj : k = j := hpid hown
    subst hkj
    rw [State.setPc_self] at hpc
    cases hpc

/-- The owner chooses the dot. -/
theorem Clocked.choose (h : Clocked u s time stored chosen copied) (hpid : Function.Injective u.pid)
    {length : ℕ} (hpc : s.pc k = .compare length) (hown : s.currentPid = u.pid k)
    (hstored : ¬ p.Stored) : Clocked u (s.setPc k p) time stored (insert k chosen) copied := by
  have hcard := Finset.card_insert_le k chosen
  have hbefore := h.owner k (by rw [hpc]; trivial) hown
  have htime := h.compare k length hpc hown
  -- nobody else owns the variable
  have hnobody : ∀ j, ((s.setPc k p).pc j).Stored → s.currentPid ≠ u.pid j := by
    intro j hst hj
    have hkj : k = j := hpid (hown.symm.trans hj)
    subst hkj
    rw [State.setPc_self] at hst
    exact hstored hst
  refine ⟨h.stored_le, ?_, by omega, ?_, ?_, ?_⟩
  · intro j hc
    by_cases hj : j = k
    · rw [hj]
      exact Finset.mem_insert_self k chosen
    · rw [State.setPc_of_ne s hj] at hc
      exact Finset.mem_insert_of_mem (h.mem_chosen j hc)
  · intro j hst hj
    exact absurd hj (hnobody j hst)
  · intro j length' delay hloop
    by_cases hj : j = k
    · rw [hj, State.setPc_self] at hloop
      subst hloop
      exact absurd trivial hstored
    · rw [State.setPc_of_ne s hj] at hloop
      exact h.loop j length' delay hloop
  · intro j length' hcompare hj
    exact absurd hj (hnobody j (by rw [hcompare]; trivial))

/-- The dot is copied. -/
theorem Clocked.copy (h : Clocked u s time stored chosen copied) (hmem : k ∈ chosen) :
    Clocked u (s.setPc k .idle) time stored (chosen.erase k) (copied + 1) := by
  have hcard := Finset.card_erase_add_one hmem
  have hmoved : Clocked u (s.setPc k .idle) time stored chosen copied := h.leave id (by decide)
  have hsum : copied + 1 + (chosen.erase k).card = copied + chosen.card := by omega
  refine ⟨h.stored_le, ?_, ?_, ?_, hmoved.loop, hmoved.compare⟩
  · intro j hc
    have hj : j ≠ k := by
      rintro rfl
      rw [State.setPc_self] at hc
      cases hc
    exact Finset.mem_erase.2 ⟨hj, hmoved.mem_chosen j hc⟩
  · rw [hsum]
    exact h.paid
  · rw [hsum]
    exact hmoved.owner

/-- What is copied begins with the character that was chosen. -/
theorem answer_head (length copied : ℕ) (c : UInt8) :
    (answer length c copied).2.head? = some dot → c = dot := by
  intro h
  by_cases hshort : length < 2
  · rw [answer, if_pos hshort] at h
    cases h
  · rw [answer, if_neg hshort] at h
    change (if (copyToUser [c, 0] copied).2 ≠ 0 then (-eFault, (copyToUser [c, 0] copied).1)
      else (1, (copyToUser [c, 0] copied).1)).2.head? = some dot at h
    rw [apply_ite Prod.snd, ite_self] at h
    have htake : ([c, 0].take copied).head? = some dot := h
    cases copied with
    | zero => cases htake
    | succ n => exact Option.some.inj htake

/-- A statement of a process. -/
theorem clocked_runPc (hpid : Function.Injective u.pid) (h : Clocked u s time stored chosen copied)
    {n : ℕ} (hstep : runPc u s k n (s.pc k) = some (s', out)) :
    ∃ stored' chosen', Clocked u s' time stored' chosen' (copied + dots out) := by
  cases hpc : s.pc k with
  | idle =>
    rw [hpc] at hstep
    cases hstep
  | lock length =>
    rw [hpc] at hstep
    simp only [runPc] at hstep
    split_ifs at hstep
    cases hstep
    exact ⟨stored, chosen, h.leave id fun hc => by cases hc⟩
  | setPid length =>
    rw [hpc] at hstep
    cases hstep
    exact ⟨time, chosen, h.store hpid length⟩
  | setDelay length =>
    rw [hpc] at hstep
    cases hstep
    refine ⟨stored, chosen, h.move (fun _ => by rw [hpc]; trivial) (fun hc => by cases hc) ?_ ?_⟩
    · rintro length' delay ⟨⟩
      exact ⟨0, setAgo_zero u.abi s.jiffies, fun _ => h.stored_le⟩
    · rintro length' ⟨⟩
  | loop length delay =>
    rw [hpc] at hstep
    simp only [runPc] at hstep
    split_ifs at hstep with hbefore
    · cases hstep
      exact ⟨stored, chosen, h⟩
    · cases hstep
      obtain ⟨e, hago, hown⟩ := h.loop k length delay hpc
      have hten := hago.ten_le hbefore
      refine ⟨stored, chosen, h.move (fun _ => by rw [hpc]; trivial) (fun hc => by cases hc) ?_ ?_⟩
      · rintro length' delay' ⟨⟩
      · intro length' _ hmine
        have hle := hown hmine
        omega
  | compare length =>
    rw [hpc] at hstep
    simp only [runPc] at hstep
    cases hstep
    have hstored : ∀ c, ¬ (u.program.leave length c).Stored := by
      intro c
      cases u.program <;> exact id
    by_cases hown : s.currentPid = u.pid k
    · exact ⟨stored, insert k chosen, h.choose hpid hpc hown (hstored _)⟩
    · rw [if_neg hown]
      refine ⟨stored, chosen, h.leave (hstored _) ?_⟩
      cases u.program <;> simp [Program.leave, Pc.char, dot, hash]
  | unlock length c =>
    rw [hpc] at hstep
    cases hstep
    refine ⟨stored, chosen, h.move (fun hst => hst.elim) (fun hc => ?_) ?_ ?_⟩
    · refine h.mem_chosen k ?_
      rw [hpc]
      exact hc
    · rintro length' delay ⟨⟩
    · rintro length' ⟨⟩
  | reply length c =>
    rw [hpc] at hstep
    simp only [runPc] at hstep
    cases hstep
    by_cases hdot : (answer length c n).2.head? = some dot
    · obtain rfl : c = dot := answer_head length n c hdot
      have hmem : k ∈ chosen := h.mem_chosen k (by rw [hpc]; rfl)
      refine ⟨stored, chosen.erase k, ?_⟩
      simpa [dots, Event.dots, hdot] using h.copy hmem
    · refine ⟨stored, chosen, ?_⟩
      have hleft : Clocked u (s.setPc k .idle) time stored chosen copied := h.leave id (by decide)
      simpa [dots, Event.dots, hdot] using hleft

theorem clocked_step (hpid : Function.Injective u.pid) (h : Clocked u s time stored chosen copied)
    (hstep : step u s a = some (s', out)) :
    ∃ stored' chosen', Clocked u s' (time + a.ticks) stored' chosen' (copied + dots out) := by
  cases a with
  | call j length =>
    simp only [step] at hstep
    split at hstep
    · cases hstep
      refine ⟨stored, chosen, h.leave ?_ ?_⟩ <;> cases u.program
      · exact id
      · exact id
      · exact fun hc => by cases hc
      · exact fun hc => by cases hc
    · cases hstep
  | signal j =>
    simp only [step] at hstep
    split at hstep
    · cases hstep
      exact ⟨stored, chosen, h.leave id (by decide)⟩
    · cases hstep
  | run j n => exact clocked_runPc hpid h hstep
  | tick =>
    cases hstep
    exact ⟨stored, chosen, h.tick⟩

theorem clocked_run (hpid : Function.Injective u.pid) {acts : List (Act K)} {log : List (Event K)}
    (h : Clocked u s time stored chosen copied) (hrun : (system u).exec s acts = some (s', log)) :
    ∃ stored' chosen', Clocked u s' (time + ticks acts) stored' chosen' (copied + dots log) := by
  induction acts generalizing s log time stored chosen copied with
  | nil =>
    cases hrun
    exact ⟨stored, chosen, h⟩
  | cons a acts ih =>
    obtain ⟨t, out, outs, hstep, hrest, rfl⟩ := System.exec_cons.1 hrun
    obtain ⟨stored', chosen', ht⟩ := clocked_step hpid h hstep
    rw [ticks_cons, dots_append, ← Nat.add_assoc, ← Nat.add_assoc]
    exact ih ht hrest

/-- **Dots are ten ticks apart**: in every run of either program, with any number of processes that have
different numbers, at least ten ticks of the clock have passed for each dot that has been copied. -/
theorem dots_apart (hpid : Function.Injective u.pid) {jiffies : ℤ} {acts : List (Act K)}
    {log : List (Event K)} (hrun : (system u).exec (init jiffies K) acts = some (s, log)) :
    10 * dots log ≤ ticks acts := by
  obtain ⟨stored, chosen, h⟩ := clocked_run hpid (clocked_init u jiffies) hrun
  have hpaid := h.paid
  omega

end Dots

/-- The first process has stored its number after the second one. -/
theorem dots_apart_bothRead :
    ∃ s log, (system (twoProcesses .iv07)).exec (init 0 Bool)
        (secondStores ++ [.run true 0] ++ firstWaits ++ [.run true 2, .run true 2]) =
          some (s, log) ∧ dots log = 1 ∧
      10 * dots log ≤ ticks (secondStores ++ [.run true 0] ++ firstWaits ++
        [.run true 2, .run true 2]) := by
  obtain ⟨⟨s, log⟩, hrun, hval⟩ := Option.map_eq_some_iff.1
    (show ((system (twoProcesses .iv07)).exec (init 0 Bool)
        (secondStores ++ [.run true 0] ++ firstWaits ++ [.run true 2, .run true 2])).map
          (fun r => dots r.2) = some 1 by decide +kernel)
  exact ⟨s, log, hrun, hval, dots_apart (twoProcesses_injective .iv07) hrun⟩

end IldDrivers.ExampleIV
