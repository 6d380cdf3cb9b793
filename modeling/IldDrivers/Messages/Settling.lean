import IldDrivers.Messages.Versions

/-!
# The message queues come to rest

As long as nobody enters the driver and no signal comes, the processes inside a message queue can
only execute a bounded number of statements, in whatever order they are scheduled, and when none of
them can go on, the mutex is free and whoever is still inside sleeps for a good reason. For `tp-V-02`
and `tp-V-03` this is a property of their monitors; `tp-V-04` is shown to take the same steps as a
monitor (`alike_step`, `stuck_of_alike`).

* `locked_settles`: in `tp-V-02` everybody returns;
* `blocking_read_settles`: in `tp-V-03` everybody returns but the readers of an empty queue;
* `blocking_settles`: in `tp-V-04` everybody returns but the readers of an empty queue, or the writers
  of a full one. So readers and writers never wait for each other.
-/

namespace IldDrivers

variable {Pid File : Type*} [DecidableEq File]

/-! ### The bodies come to an end -/

/-- How many statements follow at most in the body. -/
def Statement.rank : Statement File → ℕ
  | .room _ => 4
  | .empty _ _ | .bound _ => 3
  | .measure _ _ | .copyIn _ => 2
  | .decrement | .increment _ => 1
  | .copyOut _ _ _ | .shift | .wake _ => 0

theorem Statement.rank_lt_of_exec {abi : Abi} {counted : UserWrite → Statement File ⊕ Answer}
    (hcounted : ∀ u l, counted u = .inl l → l.rank = 0) {sh : Shared File} {l l' : Statement File}
    (h : (l.exec abi counted sh).2 = .inl l') : l'.rank < l.rank := by
  cases l with
  | shift | wake => cases h
  | decrement =>
    cases h
    exact Nat.zero_lt_one
  | increment u => exact (hcounted u l' h).symm ▸ Nat.zero_lt_one
  | empty | measure | copyOut | room | bound | copyIn =>
    simp only [exec] at h
    split_ifs at h <;> cases h <;> simp [rank]

theorem TpV02.ends (abi : Abi) :
    (TpV02.monitor abi).Ends fun _ (l : Statement File) => l.rank :=
  fun _ _ _ _ h => Statement.rank_lt_of_exec (fun _ _ h => by cases h) h

theorem TpV03.ends (abi : Abi) :
    (TpV03.monitor abi).Ends fun _ (l : Statement File) => l.rank :=
  fun _ _ _ _ h => Statement.rank_lt_of_exec (fun _ _ h => by cases h; rfl) h

/-! ### The first two versions -/

section Versions

variable [DecidableEq Pid] [Fintype Pid] {abi : Abi}
  {s : Monitor.State Pid (Shared File) (Call File) (Statement File) Answer}
  {log : List (Monitor.Output Pid (Shared File) (Call File) Answer)}
  {acts : List (Monitor.Act Pid (Call File))} {offset : File → ℤ}

/-- **Every call of `tp-V-02` returns.** From every reachable state, without new calls and signals,
the processes execute a bounded number of statements, and when none can go on, all are outside. -/
theorem locked_settles
    (hrun : ((TpV02.monitor abi).system Pid).exec
      (Monitor.init Pid _ _ _ ⟨Queue.init, offset⟩) acts = some (s, log)) :
    ∃ n, (TpV02.monitor abi).SettlesIn n s fun s' =>
      s'.mutex = none ∧ ∀ p, s'.proc p = .outside := by
  refine ⟨s.weight (TpV02.monitor abi) fun _ l => l.rank, fun acts' s' log' hacts' hrun' => ?_⟩
  obtain ⟨hlength, hrest⟩ := Monitor.Outline.settlesIn (TpV02.ends abi) (TpV02.rouses abi) trivial hrun
    acts' s' log' hacts' hrun'
  refine ⟨hlength, fun hstuck => ⟨(hrest hstuck).1, fun p => ?_⟩⟩
  rcases (hrest hstuck).2 p with hp | ⟨c, -, hb⟩
  · exact hp
  · cases hb

/-- A writer has just entered. -/
theorem locked_settles_write :
    ∃ (s : Monitor.State (Fin 2) (Shared ℕ) (Call ℕ) (Statement ℕ) Answer)
      (log : List (Monitor.Output (Fin 2) (Shared ℕ) (Call ℕ) Answer)),
      ((TpV02.monitor .lp64).system (Fin 2)).exec
        (Monitor.init (Fin 2) _ _ _ ⟨Queue.init, fun _ => 0⟩)
        (Monitor.Act.solo 0 (.write 0 ⟨[104, 105], 2⟩) 2) = some (s, log) ∧
      ∃ n, (TpV02.monitor .lp64).SettlesIn n s fun s' =>
        s'.mutex = none ∧ ∀ p, s'.proc p = .outside := by
  obtain ⟨⟨s, log⟩, hrun⟩ :
    ∃ r, ((TpV02.monitor .lp64).system (Fin 2)).exec
        (Monitor.init (Fin 2) _ _ _ ⟨Queue.init, fun _ => 0⟩)
        (Monitor.Act.solo 0 (.write 0 ⟨[104, 105], 2⟩) 2) = some r := ⟨_, rfl⟩
  exact ⟨s, log, hrun, locked_settles hrun⟩

/-- **Every call of `tp-V-03` returns, but a read of an empty queue.** -/
theorem blocking_read_settles
    (hrun : ((TpV03.monitor abi).system Pid).exec
      (Monitor.init Pid _ _ _ ⟨Queue.init, offset⟩) acts = some (s, log)) :
    ∃ n, (TpV03.monitor abi).SettlesIn n s fun s' =>
      s'.mutex = none ∧ ∀ p, s'.proc p = .outside ∨
        ∃ f u, s'.proc p = .inside (.read f u) (.wait .asleep) ∧
          s'.object.queue.messagesCount = 0 := by
  refine ⟨s.weight (TpV03.monitor abi) fun _ l => l.rank, fun acts' s' log' hacts' hrun' => ?_⟩
  obtain ⟨hlength, hrest⟩ := Monitor.Outline.settlesIn (TpV03.ends abi) (TpV03.rouses abi)
    (TpV03.rest_init abi offset) hrun acts' s' log' hacts' hrun'
  refine ⟨hlength, fun hstuck => ⟨(hrest hstuck).1, fun p => ?_⟩⟩
  refine ((hrest hstuck).2 p).imp_right ?_
  rintro ⟨c, hp, hb⟩
  cases c with
  | read f u => exact ⟨f, u, hp, by simpa [TpV03.monitor] using hb⟩
  | write f u => cases hb

/-- A reader sleeps and a writer has just entered. -/
theorem blocking_read_settles_write :
    ∃ (s : Monitor.State (Fin 2) (Shared ℕ) (Call ℕ) (Statement ℕ) Answer)
      (log : List (Monitor.Output (Fin 2) (Shared ℕ) (Call ℕ) Answer)),
      ((TpV03.monitor .lp64).system (Fin 2)).exec
        (Monitor.init (Fin 2) _ _ _ ⟨Queue.init, fun _ => 0⟩)
        (Monitor.Act.solo 1 (.read 1 ⟨8, 8, fun _ => 0⟩) 7 ++
          Monitor.Act.solo 0 (.write 0 ⟨[104, 105], 2⟩) 2) = some (s, log) ∧
      ∃ n, (TpV03.monitor .lp64).SettlesIn n s fun s' =>
        s'.mutex = none ∧ ∀ p, s'.proc p = .outside ∨
          ∃ f u, s'.proc p = .inside (.read f u) (.wait .asleep) ∧
            s'.object.queue.messagesCount = 0 := by
  obtain ⟨⟨s, log⟩, hrun⟩ :
    ∃ r, ((TpV03.monitor .lp64).system (Fin 2)).exec
        (Monitor.init (Fin 2) _ _ _ ⟨Queue.init, fun _ => 0⟩)
        (Monitor.Act.solo 1 (.read 1 ⟨8, 8, fun _ => 0⟩) 7 ++
          Monitor.Act.solo 0 (.write 0 ⟨[104, 105], 2⟩) 2) = some r := ⟨_, rfl⟩
  exact ⟨s, log, hrun, blocking_read_settles hrun⟩

end Versions

/-! ### The blocking version -/

namespace TpV04

/-- How many statements follow at most in the body. -/
def Pc.rank : Pc File → ℕ
  | .body => 4
  | .copyIn _ => 3
  | .decrement | .increment _ => 2
  | .shift => 1
  | _ => 0

theorem ends (abi : Abi) :
    (monitor abi).Ends fun _ (pc : Pc File) => pc.rank := by
  intro c sh pc pc' h
  change (bodyStep abi c sh pc).2.following = .inl pc' at h
  cases pc with
  | lock | loop | unlockWait | wait | relock | unlock | ret | wake => cases h
  | decrement =>
    cases h
    exact Nat.lt_succ_self 1
  | shift =>
    cases h
    exact Nat.zero_lt_one
  | increment =>
    cases h
    exact Nat.two_pos
  | copyOut | copyIn =>
    simp only [bodyStep] at h
    split_ifs at h <;> cases h <;> simp [Pc.rank]
  | body =>
    cases c <;> simp only [bodyStep] at h <;> split_ifs at h <;> cases h <;> simp [Pc.rank]

omit [DecidableEq File] in
theorem user_of_at {x : Proc File} (h : x.At .outside) : x = .user := by
  cases h
  rfl

omit [DecidableEq File] in
theorem asleep_of_at {x : Proc File} {c : Call File} (h : x.At (.inside c (.wait .asleep))) :
    x = .call c (.wait .asleep) := by
  cases h with
  | call _ hpc =>
    cases hpc
    rfl

variable [DecidableEq Pid] {abi : Abi} {s : State Pid File}

/-- **Readers and writers of `tp-V-04` never wait for each other.** From every reachable state, without
new calls and signals, the processes execute a bounded number of statements in whatever order. When
none can go on, the mutex is free, and whoever is inside is a reader asleep while the queue is empty,
or a writer asleep while it is full. -/
theorem blocking_settles [Fintype Pid] {offset : File → ℤ} {acts : List (Act Pid File)}
    {log : List (Output Pid File)}
    (hrun : (system abi Pid File).exec (init Pid offset) acts = some (s, log)) :
    ∃ n, ∀ acts' s' log', (∀ a ∈ acts', ∃ p, a = Act.run p) →
      (system abi Pid File).exec s acts' = some (s', log') →
        acts'.length ≤ n ∧ ((∀ p, step abi s' (.run p) = none) → s'.mutex = none ∧
          ∀ p, s'.proc p = .user ∨
            SleepsOnReadWq s' p ∧ s'.shared.queue.messagesCount = 0 ∨
            SleepsOnWriteWq s' p ∧ s'.shared.queue.messagesCount = msgNbMax) := by
  obtain ⟨m, mlog, hm, h, -⟩ := exec_toMonitor hrun
  refine ⟨m.weight (monitor abi) fun _ pc => pc.rank, fun acts' s' log' hacts' hrun' => ?_⟩
  obtain ⟨m', mlog', hm', h', -⟩ := (lockstep abi).exec h hrun'
  have hmacts : ∀ a ∈ acts'.map Act.toMonitor, ∃ p, a = Monitor.Act.run p := by
    intro a ha
    obtain ⟨b, hb, rfl⟩ := List.mem_map.1 ha
    obtain ⟨p, rfl⟩ := hacts' b hb
    exact ⟨p, rfl⟩
  obtain ⟨hlength, hrest⟩ := Monitor.Outline.settlesIn (ends abi) (rouses abi) (rest_init abi offset)
    hm _ m' mlog' hmacts hm'
  refine ⟨(List.length_map Act.toMonitor).symm.trans_le hlength, fun hstuck => ?_⟩
  have hstuck' : ∀ p, (system abi Pid File).step s' (.run p) = none := hstuck
  obtain ⟨hfree, hproc⟩ := hrest fun p => (lockstep abi).stuck h' (hstuck' p)
  have hfree' : s'.mutex = none := h'.mutex.symm.trans hfree
  refine ⟨hfree', fun p => ?_⟩
  have hat := h'.proc p
  rcases hproc p with hp | ⟨c, hp, hb⟩
  · exact .inl (user_of_at (hp ▸ hat))
  · have hasleep : s'.proc p = .call c (.wait .asleep) := asleep_of_at (hp ▸ hat)
    rw [h'.object] at hb
    cases c with
    | read f u => exact .inr (.inl ⟨⟨f, u, hasleep⟩, by simpa [monitor, blocked] using hb⟩)
    | write f u =>
      have hge : msgNbMax ≤ s'.shared.queue.messagesCount := by simpa [monitor, blocked] using hb
      have hle := (bounded_of_run (System.exec_append hrun hrun') hfree').2
      exact .inr (.inr ⟨⟨f, u, hasleep⟩, le_antisymm hle hge⟩)

/-- A reader alone comes to rest asleep. -/
theorem blocking_settles_reader :
    ∃ (s : State (Fin 2) ℕ) (log : List (Output (Fin 2) ℕ)),
      (system .lp64 (Fin 2) ℕ).exec (init (Fin 2) fun _ => 0)
        (Act.solo 0 (.read 0 ⟨8, 8, fun _ => 0⟩) 7) = some (s, log) ∧
      s.mutex = none ∧ SleepsOnReadWq s 0 ∧ s.shared.queue.messagesCount = 0 := by
  obtain ⟨⟨s, log⟩, hrun⟩ : ∃ r, (system .lp64 (Fin 2) ℕ).exec (init (Fin 2) fun _ => 0)
    (Act.solo 0 (.read 0 ⟨8, 8, fun _ => 0⟩) 7) = some r := ⟨_, rfl⟩
  obtain ⟨n, hn⟩ := blocking_settles hrun
  have hstuck : ∀ p, step .lp64 s (.run p) = none := by
    cases hrun
    intro p
    fin_cases p <;> rfl
  have hasleep : SleepsOnReadWq s 0 := by cases hrun; exact ⟨_, _, rfl⟩
  obtain ⟨hfree, hproc⟩ := (hn [] s [] (by simp) rfl).2 hstuck
  refine ⟨s, log, hrun, hfree, hasleep, ?_⟩
  obtain ⟨f, u, hp⟩ := hasleep
  rcases hproc 0 with huser | ⟨-, hcount⟩ | ⟨⟨f', u', hp'⟩, -⟩
  · rw [hp] at huser
    cases huser
  · exact hcount
  · rw [hp] at hp'
    cases hp'

end TpV04

end IldDrivers
