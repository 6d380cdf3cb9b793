import IldDrivers.Lib.MonitorWaiting
import IldDrivers.Messages.AsMonitor

/-!
# The lock and the wait queues of the blocking message queue

The proof outline of the monitor of `tp-V-04`: before each statement the holder of `messages_mutex`
finds the count that its last test of the loop promised (`Facts`), and between the statement that ends
the reason of others to wait and `wake_up_interruptible` it owes them the wake-up (`owes`).

* `outline`, `rouses`: each statement leaves what the next one needs, and no wake-up is forgotten;
* `holder_of_run`, `bounds_of_run`, `blocked_of_parked`: what this says of every run;
* `wakeups_and_lock_discipline` reads the result off.
-/

namespace IldDrivers.TpV04

variable {Pid File : Type*}

/-- Before its call to `wake_up_interruptible`, the wait condition of the other side being already
true. -/
def Pc.willWake : Pc File → Bool
  | .shift | .wake _ => true
  | _ => false

/-- The process owes a wake-up to those who wait in the call `c'`. -/
def owes (c : Call File) (pc : Pc File) (c' : Call File) : Prop :=
  pc.willWake = true ∧ wakesUp c c' = true

/-- The count is one that the array can hold. -/
def Bounded (q : Queue) : Prop := 0 ≤ q.messagesCount ∧ q.messagesCount ≤ msgNbMax

/-- What the holder of the mutex knows about the count, the call being `c`. -/
def Facts (q : Queue) (c : Call File) : Pc File → Prop
  | .body => blocked c q = false
  | .copyOut _ _ _ | .decrement => ∃ f u, c = .read f u ∧ 0 < q.messagesCount
  | .shift => ∃ f u, c = .read f u ∧ q.messagesCount < msgNbMax
  | .copyIn _ | .increment _ => ∃ f u, c = .write f u ∧ q.messagesCount < msgNbMax
  | .wake _ => match c with
    | .read _ _ => q.messagesCount < msgNbMax
    | .write _ _ => 0 < q.messagesCount
  | _ => True

/-- By how much a statement changes the number of messages. -/
def Pc.change : Pc File → ℤ
  | .decrement => -1
  | .increment _ => 1
  | _ => 0

theorem blocked_congr (c : Call File) {q q' : Queue} (h : q.messagesCount = q'.messagesCount) :
    blocked c q = blocked c q' := by
  cases c <;> simp [blocked, h]

/-! ### The outline -/

section Outline

variable [DecidableEq File] {abi : Abi} {c c' : Call File} {sh : Shared File} {pc pc' : Pc File}

theorem messagesCount_bodyStep (abi : Abi) (c : Call File) (sh : Shared File) (pc : Pc File) :
    (bodyStep abi c sh pc).1.queue.messagesCount = sh.queue.messagesCount + pc.change := by
  cases pc with
  | decrement | increment => rfl
  | shift => exact (Queue.messagesCount_shift _).trans (add_zero _).symm
  | lock | loop | unlockWait | wait | relock | wake | unlock | ret => exact (add_zero _).symm
  | body =>
    cases c <;> simp only [bodyStep, Pc.change, add_zero] <;> split_ifs <;> rfl
  | copyOut | copyIn =>
    simp only [bodyStep, Pc.change, add_zero]
    split_ifs <;> rfl

theorem bounded_bodyStep (h : Bounded sh.queue) (hfacts : Facts sh.queue c pc) :
    Bounded (bodyStep abi c sh pc).1.queue := by
  unfold Bounded at h ⊢
  rw [messagesCount_bodyStep]
  cases pc with
  | decrement =>
    obtain ⟨f, u, -, hpos⟩ := hfacts
    simp only [Pc.change]
    omega
  | increment =>
    obtain ⟨f, u, -, hlt⟩ := hfacts
    simp only [Pc.change]
    omega
  | lock | loop | unlockWait | wait | relock | body | copyOut | shift | copyIn | wake | unlock
  | ret => exact (add_zero sh.queue.messagesCount).symm ▸ h

/-- A statement leaves the next one what it needs. -/
theorem facts_step (h : Bounded sh.queue) (hfacts : Facts sh.queue c pc)
    (hnext : (bodyStep abi c sh pc).2.following = .inl pc') :
    Facts (bodyStep abi c sh pc).1.queue c pc' := by
  cases pc with
  | lock | loop | unlockWait | wait | relock | unlock | ret => cases hnext
  | wake r => cases hnext
  | body =>
    cases c with
    | read f u =>
      -- the loop has ended because there is a message
      have hpos : 0 < sh.queue.messagesCount := by
        have hne : sh.queue.messagesCount ≠ 0 := by simpa [Facts, blocked] using hfacts
        exact lt_of_le_of_ne h.1 hne.symm
      simp only [bodyStep] at hnext ⊢
      split_ifs at hnext ⊢ <;> cases hnext <;> exact ⟨f, u, rfl, hpos⟩
    | write f u =>
      have hlt : sh.queue.messagesCount < msgNbMax := by simpa [Facts, blocked] using hfacts
      simp only [bodyStep] at hnext ⊢
      split_ifs at hnext ⊢ <;> cases hnext
      exact ⟨f, u, rfl, hlt⟩
  | copyOut f u ret =>
    simp only [bodyStep] at hnext
    split_ifs at hnext <;> cases hnext
  | decrement =>
    obtain ⟨f, u, rfl, hpos⟩ := hfacts
    cases hnext
    exact ⟨f, u, rfl, Int.sub_one_lt_of_le h.2⟩
  | shift =>
    obtain ⟨f, u, rfl, hlt⟩ := hfacts
    cases hnext
    change (Queue.shift _).messagesCount < msgNbMax
    rwa [Queue.messagesCount_shift]
  | copyIn u =>
    simp only [bodyStep] at hnext ⊢
    split_ifs at hnext ⊢
    · cases hnext
    · cases hnext
      exact hfacts
  | increment u =>
    obtain ⟨f, u', rfl, -⟩ := hfacts
    cases hnext
    exact Int.lt_add_one_of_le h.1

/-- What is known before each statement of `tp-V-04`. -/
def outline (abi : Abi) :
    (monitor abi : Monitor (Shared File) (Call File) (Pc File) Answer).Outline where
  rest sh := Bounded sh.queue
  facts c pc sh := Bounded sh.queue ∧ Facts sh.queue c pc
  entry hrest hb := ⟨hrest, hb⟩
  step h hnext := ⟨bounded_bodyStep h.1 h.2, facts_step h.1 h.2 hnext⟩
  last h _ := bounded_bodyStep h.1 h.2

theorem rest_init (abi : Abi) (offset : File → ℤ) : (outline abi).rest ⟨Queue.init, offset⟩ :=
  ⟨le_refl 0, show (0 : ℤ) ≤ msgNbMax by decide⟩

/-- A statement that leaves the count alone ends no reason to wait. -/
theorem blocked_bodyStep (h : pc.change = 0) :
    blocked c' (bodyStep abi c sh pc).1.queue = blocked c' sh.queue :=
  blocked_congr c' (by rw [messagesCount_bodyStep, h, add_zero])

/-- Whoever may go on because of a statement is woken by it, or owed a wake-up after it. -/
theorem rouses (abi : Abi) : (outline abi).Rouses (owes : Call File → _) := by
  rintro c pc sh c' ⟨hbounds, hfacts⟩ hcause
  have hsame : pc.change = 0 → owes c pc c' := fun hchange => by
    refine hcause.resolve_left ?_
    rintro ⟨hb, hnot⟩
    have hafter : blocked c' (bodyStep abi c sh pc).1.queue = false := hnot
    rw [blocked_bodyStep hchange, show blocked c' sh.queue = true from hb] at hafter
    cases hafter
  cases pc with
  | wake r => exact .inl (hsame rfl).2
  | shift => exact .inr ⟨.wake 0, rfl, rfl, (hsame rfl).2⟩
  | lock | loop | unlockWait | wait | relock | body | copyOut | copyIn | unlock | ret =>
    cases (hsame rfl).1
  | decrement =>
    obtain ⟨f, u, rfl, hpos⟩ := hfacts
    -- the row set free may end the wait of a writer
    cases c' with
    | write f' u' => exact .inr ⟨.shift, rfl, rfl, rfl⟩
    | read f' u' =>
      rcases hcause with ⟨hb, -⟩ | ⟨howes, -⟩
      · have hzero : sh.queue.messagesCount = 0 := by simpa [monitor, blocked] using hb
        exact absurd hpos (not_lt.2 hzero.le)
      · cases howes
  | increment w =>
    obtain ⟨f, u, rfl, hlt⟩ := hfacts
    -- the new message may end the wait of a reader
    cases c' with
    | read f' u' => exact .inr ⟨.wake w.data.length, rfl, rfl, rfl⟩
    | write f' u' =>
      rcases hcause with ⟨hb, -⟩ | ⟨howes, -⟩
      · have hfull : msgNbMax ≤ sh.queue.messagesCount := by simpa [monitor, blocked] using hb
        exact absurd hlt (not_lt.2 hfull)
      · cases howes

end Outline

/-! ### Every run -/

/-- Between a lock and the next unlock, the unlock not yet executed. -/
def Pc.holds : Pc File → Bool
  | .lock | .wait _ | .relock | .ret _ => false
  | _ => true

def Proc.holds : Proc File → Bool
  | .user => false
  | .call _ pc => pc.holds

theorem holds_of_at {x : Proc File} {y : Monitor.Proc (Call File) (Pc File) Answer} (h : x.At y) :
    y.holds = x.holds := by
  cases h with
  | user => rfl
  | @call c pc pt hpc =>
    cases hpc with
    | body _ hbody => cases pc <;> first | rfl | cases hbody
    | lock | relock | loop | unlockWait | wait | wake | unlock | ret => rfl

section Run

variable [DecidableEq Pid] [DecidableEq File] {abi : Abi} {offset : File → ℤ}
  {acts : List (Act Pid File)} {s : State Pid File} {log : List (Output Pid File)} {p : Pid}
  {c : Call File}

/-- Exactly the holder of the mutex is between a lock and an unlock. -/
theorem holder_of_run (hrun : (system abi Pid File).exec (init Pid offset) acts = some (s, log))
    (p : Pid) : s.mutex = some p ↔ (s.proc p).holds = true := by
  obtain ⟨m, mlog, hm, h, -⟩ := exec_toMonitor hrun
  rw [← h.mutex, ← holds_of_at (h.proc p)]
  exact (Monitor.linear_of_run hm).1 p

/-- When the mutex is free, the count is in bounds. -/
theorem bounded_of_run (hrun : (system abi Pid File).exec (init Pid offset) acts = some (s, log))
    (hfree : s.mutex = none) : Bounded s.shared.queue := by
  obtain ⟨m, mlog, hm, h, -⟩ := exec_toMonitor hrun
  rw [← h.object]
  exact (Monitor.Outline.of_run (rest_init abi offset) hm).1 (h.mutex.trans hfree)

/-- When the mutex is free, whoever sleeps, or is bound to, has a reason to. -/
theorem blocked_of_parked
    (hrun : (system abi Pid File).exec (init Pid offset) acts = some (s, log))
    (hfree : s.mutex = none) {w : WaitPoint} (hp : s.proc p = .call c (.wait w)) (hw : w.Parked) :
    blocked c s.shared.queue = true := by
  obtain ⟨m, mlog, hm, h, -⟩ := exec_toMonitor hrun
  obtain ⟨pt, hpt, hat⟩ := h.inside hp
  cases hat with
  | body _ hbody => cases hbody
  | wait w =>
    rw [← h.object]
    exact Monitor.Outline.no_lost_wakeup (rouses abi) (rest_init abi offset) hm
      (h.mutex.trans hfree) hpt hw

end Run

variable [DecidableEq Pid] [DecidableEq File]

/-! ### Wake-ups and lock discipline -/

/-- Process `p` sleeps on `messages_read_wq`. -/
def SleepsOnReadWq (s : State Pid File) (p : Pid) : Prop :=
  ∃ f u, s.proc p = .call (.read f u) (.wait .asleep)

/-- Process `p` sleeps on `messages_write_wq`. -/
def SleepsOnWriteWq (s : State Pid File) (p : Pid) : Prop :=
  ∃ f u, s.proc p = .call (.write f u) (.wait .asleep)

/-- The next statement of process `p` is a `mutex_unlock`. -/
def AboutToUnlock (s : State Pid File) (p : Pid) : Prop :=
  ∃ c, s.proc p = .call c .unlockWait ∨ ∃ ret user, s.proc p = .call c (.unlock ret user)

/-- **No lost wake-up, and the lock discipline.** In every reachable state: when the mutex is free,
nobody sleeps on a queue whose condition holds; whoever sleeps, or is in user space, does not hold
the mutex; and whoever is about to release it holds it. -/
theorem wakeups_and_lock_discipline {abi : Abi} {offset : File → ℤ} {acts : List (Act Pid File)}
    {s : State Pid File} {log : List (Output Pid File)}
    (hrun : (system abi Pid File).exec (init Pid offset) acts = some (s, log)) :
    (s.mutex = none →
      (∀ p, SleepsOnReadWq s p → ¬ s.shared.queue.messagesCount ≠ 0) ∧
      (∀ p, SleepsOnWriteWq s p → ¬ s.shared.queue.messagesCount < msgNbMax)) ∧
    (∀ p, SleepsOnReadWq s p ∨ SleepsOnWriteWq s p → s.mutex ≠ some p) ∧
    (∀ p, s.proc p = .user → s.mutex ≠ some p) ∧
    (∀ p, AboutToUnlock s p → s.mutex = some p) := by
  have holder := holder_of_run hrun
  refine ⟨fun hfree => ⟨?_, ?_⟩, ?_, ?_, ?_⟩
  · rintro p ⟨f, u, hp⟩
    simpa [blocked] using blocked_of_parked hrun hfree hp (.inr rfl)
  · rintro p ⟨f, u, hp⟩
    simpa [blocked] using blocked_of_parked hrun hfree hp (.inr rfl)
  · rintro p (⟨f, u, hp⟩ | ⟨f, u, hp⟩) hm <;> simp [holder, hp, Proc.holds, Pc.holds] at hm
  · intro p hp hm
    simp [holder, hp, Proc.holds] at hm
  · rintro p ⟨c, hp | ⟨ret, user, hp⟩⟩ <;> simp [holder, hp, Proc.holds, Pc.holds]

/-- A reader that finds no message goes to sleep without the mutex. -/
theorem wakeups_and_lock_discipline_asleep :
    ∃ (s : State ℕ ℕ) (log : List (Output ℕ ℕ)),
      (system .lp64 ℕ ℕ).exec (init ℕ fun _ => 0)
        (Act.solo 0 (.read 0 ⟨8, 8, fun _ => 0⟩) 7) = some (s, log) ∧
      SleepsOnReadWq s 0 ∧ s.mutex ≠ some 0 ∧ ¬ s.shared.queue.messagesCount ≠ 0 := by
  obtain ⟨⟨s, log⟩, hrun⟩ : ∃ r, (system .lp64 ℕ ℕ).exec (init ℕ fun _ => 0)
    (Act.solo 0 (.read 0 ⟨8, 8, fun _ => 0⟩) 7) = some r := ⟨_, rfl⟩
  have h := wakeups_and_lock_discipline hrun
  have hasleep : SleepsOnReadWq s 0 := by cases hrun; exact ⟨_, _, rfl⟩
  have hfree : s.mutex = none := by cases hrun; rfl
  exact ⟨s, log, hrun, hasleep, h.2.1 0 (.inl hasleep), (h.1 hfree).1 0 hasleep⟩

end IldDrivers.TpV04
