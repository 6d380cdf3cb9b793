import IldDrivers.Interrupts.Select

/-!
# No process is left asleep in `select`

A process in `select` has *missed* the device when it has polled it in vain and no wake-up has reached
it since: it will sleep, or sleeps already, unless another file is ready. A handler that records a time
wakes the queue afterwards, and `poll_wait` comes before the test, so that a process that has missed the
device next to a time recorded is about to be woken.

* `inv_driverStep`: what is known of `example-V-10` holds of the driver of `example-select`;
* `SelectPoint.Missed`: to have missed the device;
* `select_no_lost_wakeup`: nobody sleeps next to times that are to be read.
-/

namespace IldDrivers.SelectLoop

open Timestamps (ReadArgs Program)

variable {Pid : Type*} [DecidableEq Pid]

/-! ### The readers -/

section Driver

open Timestamps (setProc_of_ne setProc_self)

variable {abi : Abi} {s s' : Timestamps.State Pid} {a : Timestamps.Act Pid}
  {log out : List (Timestamps.Event Pid)}

theorem inv_driverReadStep {p : Pid} {b : ReadArgs} {pc : Timestamps.ReadPc}
    (h : Timestamps.Inv s log) (hp : s.proc p = .read b pc)
    (hstep : Program.exampleSelect.readStep abi s p b pc = some (s', out)) :
    Timestamps.Inv s' (log ++ out) := by
  have hwake : s.proc p ≠ .handlerWake := by simp [hp]
  cases pc with
  | lock =>
    simp only [Program.readStep] at hstep
    split_ifs at hstep
    · cases hstep
      exact h.leave hwake _ _
    · exact Timestamps.inv_readStep h hp hstep
  | testNonblock =>
    have hshared : Timestamps.readStep .v10 abi s p b .testNonblock = some (s', out) := hstep
    exact Timestamps.inv_readStep h hp hshared
  | wait w =>
    have hshared : Timestamps.readStep .v10 abi s p b (.wait w) = some (s', out) := hstep
    exact Timestamps.inv_readStep h hp hshared
  | format value =>
    cases hstep
    exact h.leave hwake _ _

/-- The array, and the readers that sleep in `example_read`. -/
theorem inv_driverStep (h : Timestamps.Inv s log)
    (hstep : Program.exampleSelect.step abi s a = some (s', out)) :
    Timestamps.Inv s' (log ++ out) := by
  by_cases hread : ∃ p b pc, a = .run p ∧ s.proc p = .read b pc
  · obtain ⟨p, b, pc, rfl, hp⟩ := hread
    simp only [Program.step, hp] at hstep
    exact inv_driverReadStep h hp hstep
  · rw [step_eq fun p b pc ha hp => hread ⟨p, b, pc, ha, hp⟩] at hstep
    exact Timestamps.inv_step h hstep

/-- A process that does not come out of a handler leaves a handler where it is. -/
theorem none_of_setProc {t : Timestamps.State Pid} {p : Pid} {x : Timestamps.Proc}
    (hp : s.proc p ≠ .handlerWake) (ht : t.proc = s.proc)
    (hnone : ∀ q, (t.setProc p x).proc q ≠ .handlerWake) : ∀ q, s.proc q ≠ .handlerWake := by
  intro q
  by_cases hq : q = p
  · rwa [hq]
  · have hsame := hnone q
    rwa [setProc_of_ne hq, ht] at hsame

/-- Where there are times to be read and no handler is about to wake the queue, the step was such a
wake-up, or it was so before. -/
theorem before_of_step (hsome : s'.data.arrayEnd ≠ 0)
    (hnone : ∀ q, s'.proc q ≠ .handlerWake)
    (hstep : Program.exampleSelect.step abi s a = some (s', out)) :
    (∃ p, a = .run p ∧ s.proc p = .handlerWake) ∨
      (s.data.arrayEnd ≠ 0 ∧ ∀ q, s.proc q ≠ .handlerWake) := by
  cases a with
  | tick =>
    cases hstep
    exact .inr ⟨hsome, hnone⟩
  | interrupt p | read p b =>
    simp only [Program.step, Timestamps.step] at hstep
    split at hstep
    · rename_i hp
      cases hstep
      exact .inr ⟨hsome, none_of_setProc (by simp [hp]) rfl hnone⟩
    · cases hstep
  | run p =>
    cases hp : s.proc p with
    | outside => simp [Program.step, hp] at hstep
    | handlerLock =>
      simp only [Program.step, hp] at hstep
      split_ifs at hstep <;> cases hstep <;> exact absurd (setProc_self ..) (hnone p)
    | handlerWake => exact .inl ⟨p, rfl, hp⟩
    | read b pc =>
      have hwake : s.proc p ≠ .handlerWake := by simp [hp]
      simp only [Program.step, hp] at hstep
      cases pc with
      | lock =>
        simp only [Program.readStep, Timestamps.readStep] at hstep
        split_ifs at hstep with hroom hempty
        · cases hstep
          exact .inr ⟨hsome, none_of_setProc hwake rfl hnone⟩
        · cases hstep
          exact .inr ⟨hsome, none_of_setProc hwake rfl hnone⟩
        · cases hstep
          exact .inr ⟨hempty, none_of_setProc hwake rfl hnone⟩
      | testNonblock =>
        simp only [Program.readStep, Timestamps.readStep] at hstep
        split_ifs at hstep <;> cases hstep <;>
          exact .inr ⟨hsome, none_of_setProc hwake rfl hnone⟩
      | wait w =>
        simp only [Program.readStep, Timestamps.readStep] at hstep
        split at hstep <;> cases hstep <;> exact .inr ⟨hsome, none_of_setProc hwake rfl hnone⟩
      | format value =>
        cases hstep
        exact .inr ⟨hsome, none_of_setProc hwake rfl hnone⟩
  | signal p =>
    simp only [Program.step, Timestamps.step] at hstep
    split at hstep
    · rename_i hp
      simp only [Timestamps.signalStep] at hstep
      split at hstep <;> cases hstep <;>
        exact .inr ⟨hsome, none_of_setProc (by simp [hp]) rfl hnone⟩
    · cases hstep

end Driver

/-! ### Who has missed the device -/

def SelectPoint.table : SelectPoint → PollTable
  | .poll t _ _ _ | .schedule t | .asleep t => t

/-- The device has been polled in this round. -/
def SelectPoint.Polled (argv : List File) : SelectPoint → Prop
  | .poll _ i _ _ => ∃ j < i, argv[j]? = some .device
  | .schedule _ | .asleep _ => .device ∈ argv

/-- The device has been polled in vain, and no wake-up has reached the process since. -/
def SelectPoint.Missed (argv : List File) : SelectPoint → Prop
  | .poll t i ready _ => t.triggered = false ∧ ∃ j < i, argv[j]? = some .device ∧ j ∉ ready
  | .schedule t => t.triggered = false ∧ .device ∈ argv
  | .asleep _ => .device ∈ argv

variable {argv : List File}

theorem SelectPoint.Missed.polled {w : SelectPoint} (h : w.Missed argv) : w.Polled argv := by
  cases w with
  | poll t i ready expired =>
    obtain ⟨-, j, hj, hdevice, -⟩ := h
    exact ⟨j, hj, hdevice⟩
  | schedule t => exact h.2
  | asleep t => exact h

theorem SelectPoint.wake_polled {w : SelectPoint} (h : w.wake.Polled argv) :
    w.Polled argv ∧ (w.table.queued = true → w.wake.table.queued = true) := by
  cases w with
  | poll t i ready expired => exact ⟨h, id⟩
  | schedule t => exact ⟨h, id⟩
  | asleep t =>
    simp only [wake] at h ⊢
    split_ifs at h ⊢ with hqueued
    · obtain ⟨j, hj, -⟩ := h
      exact absurd hj (Nat.not_lt_zero j)
    · exact ⟨h, id⟩

/-- A wake-up reaches who is in the queue. -/
theorem SelectPoint.wake_not_missed {w : SelectPoint}
    (hqueued : w.Polled argv → w.table.queued = true) : ¬ w.wake.Missed argv := by
  intro hmissed
  obtain ⟨hpolled, -⟩ := wake_polled hmissed.polled
  have hq := hqueued hpolled
  cases w with
  | poll t i ready expired =>
    have htriggered := hmissed.1
    simp only [table] at hq
    simp [hq] at htriggered
  | schedule t =>
    have htriggered := hmissed.1
    simp only [table] at hq
    simp [hq] at htriggered
  | asleep t =>
    simp only [table] at hq
    simp only [wake, hq, if_true] at hmissed
    obtain ⟨-, j, hj, -⟩ := hmissed
    exact absurd hj (Nat.not_lt_zero j)

/-! ### The invariant -/

/-- The invariant of a run. -/
structure Waking (argv : Pid → List File) (s : State Pid) (log : List (Event Pid)) : Prop where
  driver : Timestamps.Inv s.driver (driverLog log)
  /-- Who has polled the device is in its queue. -/
  queued : ∀ p w, s.loop p = some (.select w) → w.Polled (argv p) → w.table.queued = true
  /-- Next to times to be read only a handler that is about to wake the queue lets a process miss
  the device. -/
  awake : s.driver.data.arrayEnd ≠ 0 → (∀ q, s.driver.proc q ≠ .handlerWake) →
    ∀ p w, s.loop p = some (.select w) → ¬ w.Missed (argv p)

variable {abi : Abi} {argv : Pid → List File} {s s' : State Pid} {log out : List (Event Pid)}

omit [DecidableEq Pid] in
theorem waking_init (array : Memory ℕ) (jiffies : ℕ) : Waking argv (init Pid array jiffies) [] where
  driver := ⟨Timestamps.queued_init array, Timestamps.noLostWake_init array jiffies⟩
  queued := by
    intro p w hp
    cases hp
  awake := by
    intro _ _ p w hp
    cases hp

/-- A step of one process that leaves the driver alone. -/
theorem Waking.setLoop (h : Waking argv s log) {p : Pid} {l : Loop}
    (hlog : driverLog out = [])
    (hqueued : ∀ w, l = .select w → w.Polled (argv p) → w.table.queued = true)
    (hawake : s.driver.data.arrayEnd ≠ 0 → (∀ q, s.driver.proc q ≠ .handlerWake) →
      ∀ w, l = .select w → ¬ w.Missed (argv p)) : Waking argv (s.setLoop p l) (log ++ out) where
  driver := by
    rw [driverLog_append, hlog, List.append_nil]
    exact h.driver
  queued := by
    intro q w hq
    by_cases hqp : q = p
    · subst hqp
      rw [setLoop_self] at hq
      exact hqueued w (Option.some.inj hq)
    · rw [setLoop_of_ne hqp] at hq
      exact h.queued q w hq
  awake := by
    intro hsome hnone q w hq
    by_cases hqp : q = p
    · subst hqp
      rw [setLoop_self] at hq
      exact hawake hsome hnone w (Option.some.inj hq)
    · rw [setLoop_of_ne hqp] at hq
      exact h.awake hsome hnone q w hq

/-- The start of `select`, and of a round in it: no file has been polled yet. -/
theorem Waking.restart (h : Waking argv s log) {p : Pid} {t : PollTable} {expired : Bool}
    (hlog : driverLog out = []) :
    Waking argv (s.setLoop p (.select (.poll t 0 [] expired))) (log ++ out) := by
  refine h.setLoop hlog ?_ ?_
  · intro w hw hpolled
    cases hw
    obtain ⟨j, hj, -⟩ := hpolled
    exact absurd hj (Nat.not_lt_zero j)
  · intro _ _ w hw hmissed
    cases hw
    obtain ⟨-, j, hj, -⟩ := hmissed
    exact absurd hj (Nat.not_lt_zero j)

/-- A process that leaves `select`. -/
theorem Waking.leave (h : Waking argv s log) {p : Pid} {l : Loop} (hl : ∀ w, l ≠ .select w)
    (hlog : driverLog out = []) : Waking argv (s.setLoop p l) (log ++ out) :=
  h.setLoop hlog (fun w hw => absurd hw (hl w)) fun _ _ w hw => absurd hw (hl w)

/-- The poll of the file of index `i`. -/
theorem Waking.poll (h : Waking argv s log) {p : Pid} {t : PollTable} {i : ℕ}
    {ready found : List ℕ} {expired : Bool}
    (hp : s.loop p = some (.select (.poll t i ready expired)))
    (hqueued : (argv p)[i]? = some .device → t.queued = true) (hsub : ready ⊆ found)
    (hfound : s.driver.data.arrayEnd ≠ 0 → (argv p)[i]? = some .device → i ∈ found) :
    Waking argv (s.setLoop p (.select (.poll t (i + 1) found expired))) (log ++ []) := by
  have hbefore := h.queued p _ hp
  refine h.setLoop rfl ?_ ?_
  · intro w hw hpolled
    cases hw
    obtain ⟨j, hj, hdevice⟩ := hpolled
    rcases Nat.lt_succ_iff_lt_or_eq.1 hj with hlt | rfl
    · exact hbefore ⟨j, hlt, hdevice⟩
    · exact hqueued hdevice
  · intro hsome hnone w hw hmissed
    cases hw
    obtain ⟨htriggered, j, hj, hdevice, hready⟩ := hmissed
    rcases Nat.lt_succ_iff_lt_or_eq.1 hj with hlt | rfl
    · exact h.awake hsome hnone p _ hp
        ⟨htriggered, j, hlt, hdevice, fun hmem => hready (hsub hmem)⟩
    · exact hready (hfound hsome hdevice)

theorem waking_selectStep {p : Pid} {r : Reply} {w : SelectPoint} (h : Waking argv s log)
    (hp : s.loop p = some (.select w)) (hstep : selectStep (argv p) s p r w = some (s', out)) :
    Waking argv s' (log ++ out) := by
  cases w with
  | poll t i ready expired =>
    simp only [selectStep] at hstep
    split at hstep
    · rename_i hdevice
      split_ifs at hstep with hqueued hsome
      · cases hstep
        exact h.poll hp (fun _ => hqueued) (List.subset_append_left ..)
          fun _ _ => List.mem_append_right _ List.mem_cons_self
      · cases hstep
        refine h.poll hp (fun _ => hqueued) (List.Subset.refl _) fun hne _ => ?_
        have hnonneg := h.driver.queued.nonneg
        omega
      · -- `poll_wait`
        cases hstep
        refine h.setLoop rfl (fun w hw _ => by cases hw; rfl) ?_
        intro hsome hnone w hw hmissed
        cases hw
        exact h.awake hsome hnone p _ hp hmissed
    · rename_i hother
      cases hstep
      refine h.poll hp (fun hdevice => ?_) ?_ fun _ hdevice => ?_
      · rw [hother] at hdevice
        cases hdevice
      · split_ifs
        · exact List.subset_append_left ..
        · exact List.Subset.refl _
      · rw [hother] at hdevice
        cases hdevice
    · rename_i hend
      split_ifs at hstep with hready hexpired
      · cases hstep
        exact h.leave (fun _ hw => by cases hw) rfl
      · cases hstep
        exact h.restart rfl
      · -- all files have been polled in vain
        cases hstep
        have hlen := List.getElem?_eq_none_iff.1 hend
        have hall : .device ∈ argv p → ∃ j < i, (argv p)[j]? = some .device := by
          intro hmem
          obtain ⟨j, hj⟩ := List.mem_iff_getElem?.1 hmem
          obtain ⟨hlt, -⟩ := List.getElem?_eq_some_iff.1 hj
          exact ⟨j, lt_of_lt_of_le hlt hlen, hj⟩
        have hqueued := h.queued p _ hp
        refine h.setLoop rfl ?_ ?_
        · intro w hw hmem
          cases hw
          exact hqueued (hall hmem)
        · intro hsome hnone w hw hmissed
          cases hw
          obtain ⟨htriggered, hmem⟩ := hmissed
          obtain ⟨j, hj, hdevice⟩ := hall hmem
          refine h.awake hsome hnone p _ hp ⟨htriggered, j, hj, hdevice, ?_⟩
          rw [not_not.1 hready]
          exact List.not_mem_nil
  | schedule t =>
    simp only [selectStep] at hstep
    split_ifs at hstep with htriggered
    · cases hstep
      exact h.restart rfl
    · cases hstep
      have hqueued := h.queued p _ hp
      refine h.setLoop rfl ?_ ?_
      · intro w hw hmem
        cases hw
        exact hqueued hmem
      · rintro hsome hnone w hw hmem
        cases hw
        exact h.awake hsome hnone p _ hp ⟨Bool.eq_false_iff.2 htriggered, hmem⟩
  | asleep t => cases hstep

theorem waking_loopStep {p : Pid} {r : Reply} {l : Loop} (h : Waking argv s log)
    (hseated : Seated s) (hp : s.loop p = some l)
    (hstep : loopStep (argv p) s p r l = some (s', out)) : Waking argv s' (log ++ out) := by
  cases l with
  | select w => exact waking_selectStep h hp hstep
  | service i ready =>
    have hout : s.driver.proc p = .outside := hseated p _ hp fun _ _ hl => by cases hl
    simp only [loopStep] at hstep
    split at hstep
    · cases hstep
      exact h.restart rfl
    · rename_i f hf
      split_ifs at hstep with hready
      · cases f with
        | device =>
          cases hstep
          have hentered : Waking argv
              { s with driver := s.driver.setProc p (.read lgBuffer .lock) } (log ++ []) := by
            refine ⟨?_, h.queued, fun hsome hnone => ?_⟩
            · rw [driverLog_append]
              exact h.driver.setProc (by simp [hout]) fun _ _ => id
            · exact h.awake hsome (none_of_setProc (by simp [hout]) rfl hnone)
          have hleft : Waking argv _ (log ++ [] ++ []) :=
            hentered.leave (p := p) (l := .reading i ready) (fun _ hw => by cases hw)
            rfl
          rwa [List.append_nil] at hleft
        | other =>
          cases hstep
          refine h.leave (fun _ hw => by cases hw) ?_
          cases r.text <;> rfl
      · cases hstep
        exact h.leave (fun _ hw => by cases hw) rfl
  | reading i ready => cases hstep
  | ended => cases hstep

theorem waking_kernel {a : Timestamps.Act Pid} (h : Waking argv s log)
    (hstep : step abi argv s (.kernel a) = some (s', out)) : Waking argv s' (log ++ out) := by
  have hloop : ∀ q w, s'.loop q = some (.select w) → wakeStep s a q = some (.select w) := by
    intro q w hw
    rcases kernel_loop hstep q with hsame | ⟨i, ready, -, hback, -⟩
    · rw [← hsame, hw]
    · rw [hback] at hw
      cases hw
  obtain ⟨d, dout, hallowed, hdriver, -, rfl, rfl⟩ := kernel_cases hstep
  refine ⟨?_, fun q w hw hpolled => ?_, fun hsome hnone q w hw => ?_⟩
  · rw [driverLog_append]
    exact inv_driverStep h.driver hdriver
  · obtain ⟨l₀, hl₀, rfl | hwoken⟩ := wakeStep_some (hloop q w hw)
    · exact h.queued q w hl₀ hpolled
    · cases l₀ with
      | select w₀ =>
        cases hwoken
        obtain ⟨hbefore, hkept⟩ := SelectPoint.wake_polled hpolled
        exact hkept (h.queued q w₀ hl₀ hbefore)
      | service | reading | ended => cases hwoken
  · rcases before_of_step hsome hnone hdriver with ⟨p, rfl, hp⟩ | ⟨hbefore, hnone'⟩
    · -- the wake-up
      have hw' := hloop q w hw
      simp only [wakeStep, hp, if_true] at hw'
      obtain ⟨l₀, hl₀, hwoken⟩ := Option.map_eq_some_iff.1 hw'
      cases l₀ with
      | select w₀ =>
        cases hwoken
        exact SelectPoint.wake_not_missed (h.queued q w₀ hl₀)
      | service | reading | ended => cases hwoken
    · have hsame : wakeStep s a q = s.loop q := by
        unfold wakeStep
        split
        · rename_i p
          rw [if_neg (hnone' p)]
        · rfl
      exact h.awake hbefore hnone' q w (hsame ▸ hloop q w hw)

theorem waking_step {a : Act Pid} (h : Waking argv s log) (hseated : Seated s)
    (hstep : step abi argv s a = some (s', out)) : Waking argv s' (log ++ out) := by
  cases a with
  | kernel a => exact waking_kernel h hstep
  | start p =>
    simp only [step] at hstep
    split_ifs at hstep
    cases hstep
    exact h.restart rfl
  | run p r =>
    simp only [step] at hstep
    split at hstep
    · rename_i l hl
      exact waking_loopStep h hseated hl hstep
    · cases hstep
  | timeout p =>
    simp only [step] at hstep
    split at hstep
    · cases hstep
      exact h.restart rfl
    · cases hstep
  | signal p =>
    simp only [step] at hstep
    split at hstep
    · cases hstep
      exact h.leave (fun _ hw => by cases hw) rfl
    · cases hstep

theorem waking_of_run {array : Memory ℕ} {jiffies : ℕ} {acts : List (Act Pid)}
    (hrun : (system abi argv).exec (init Pid array jiffies) acts = some (s, log)) :
    Seated s ∧ Waking argv s log :=
  System.exec_induction (I := fun s log => Seated s ∧ Waking argv s log)
    (fun _ _ _ _ _ h hstep => ⟨seated_step h.1 hstep, waking_step h.2 h.1 hstep⟩)
    ⟨seated_init array jiffies, waking_init array jiffies⟩ hrun

/-- **Nobody is left asleep.** In every run of the driver with any number of readers and of processes
that run `test-select`, on whatever files: when there are times to be read and no handler is about to
wake the queue, no process is asleep in `example_read`, and none that has the device among its files is
asleep in `select`, or bound to sleep there. -/
theorem select_no_lost_wakeup {array : Memory ℕ} {jiffies : ℕ} {acts : List (Act Pid)}
    (hrun : (system abi argv).exec (init Pid array jiffies) acts = some (s, log))
    (hsome : 0 < s.driver.data.arrayEnd) (hnone : ∀ q, s.driver.proc q ≠ .handlerWake) :
    (∀ p, ¬ (s.driver.proc p).Parked) ∧
    ∀ p, .device ∈ argv p → ∀ t, s.loop p ≠ some (.select (.asleep t)) ∧
      (s.loop p = some (.select (.schedule t)) → t.triggered = true) := by
  obtain ⟨-, hwaking⟩ := waking_of_run hrun
  refine ⟨hwaking.driver.noLostWake hsome.ne' hnone, fun p hmem t => ⟨fun hp => ?_, fun hp => ?_⟩⟩
  · exact hwaking.awake hsome.ne' hnone p _ hp hmem
  · by_contra htriggered
    exact hwaking.awake hsome.ne' hnone p _ hp ⟨Bool.eq_false_iff.2 htriggered, hmem⟩

/-- One process sleeps in `select` on another file and the device, the other handles an interrupt. -/
def wokenInSelect : List (Act Bool) :=
  .start true :: List.replicate 5 (.run true ⟨false, none⟩) ++
  [.kernel (.interrupt false), .kernel (.run false), .kernel (.run false)]

theorem select_no_lost_wakeup_woken :
    ∃ (s : State Bool) (log : List (Event Bool)),
      (system .lp64 fun _ => [.other, .device]).exec (init Bool (fun _ => 0) 7) wokenInSelect =
        some (s, log) ∧
      s.loop true = some (.select (.poll ⟨true, false⟩ 0 [] false)) ∧
      s.driver.data.pending = [7] ∧ ∀ p, ¬ (s.driver.proc p).Parked := by
  obtain ⟨⟨s, log⟩, hrun, hval⟩ := Option.map_eq_some_iff.1
    (show ((system .lp64 fun _ => [.other, .device]).exec (init Bool (fun _ => 0) 7)
        wokenInSelect).map (fun r => (r.1.loop true, r.1.driver.data.pending,
          r.1.driver.data.arrayEnd, r.1.driver.proc false, r.1.driver.proc true)) =
      some (some (.select (.poll ⟨true, false⟩ 0 [] false)), [7], 1, .outside, .outside) by
        decide +kernel)
  simp only [Prod.mk.injEq] at hval
  obtain ⟨hloop, hpending, hend, hfalse, htrue⟩ := hval
  have hnone : ∀ q, s.driver.proc q ≠ .handlerWake := by
    intro q
    cases q with
    | false => rw [hfalse]; decide
    | true => rw [htrue]; decide
  exact ⟨s, log, hrun, hloop, hpending,
    (select_no_lost_wakeup hrun (by rw [hend]; decide) hnone).1⟩

end IldDrivers.SelectLoop
