import IldDrivers.Lib.MonitorWaiting
import IldDrivers.Messages.Refinement

/-!
# The versions between the sequential and the blocking queue

`tp-V-02` puts the functions of `tp-V-01` behind a mutex, and `tp-V-03` lets a reader sleep until
there is a message, while a writer that finds no room still fails. Both are monitors over the module
and the offsets of the open files. Their bodies differ in the first test of a read, which has become
the condition of a loop, and in what follows `messages_count++`.

* `Statement`, `Statement.exec`: the statements of the bodies, both versions together;
* `TpV02.monitor`, `TpV03.monitor`: the versions;
* `TpV02.completes_call`, `TpV03.completes_call`: alone, a body does what `tp-V-01` does;
* `TpV03.outline`, `TpV03.rouses`: what is known of the number of messages before each statement, and
  which of them leaves a wake-up owed;
* `locked_refines_sequential`, `blocking_read_refines_sequential`: in every run the calls that no
  signal ends are calls of `tp-V-01`, one after the other;
* `blocking_read_wakeups`: no reader of `tp-V-03` sleeps on, or is bound to, while there is a message
  and nobody about to wake it.
-/

namespace IldDrivers

variable {File : Type*}

/-- The statements of `messages_read` and `messages_write` with the mutex held. -/
inductive Statement (File : Type*)
  /-- The test for a message, in the read of `tp-V-02`. -/
  | empty (f : File) (u : UserRead)
  /-- `ret = strlen(messages_array[0]) - *offset`, and the tests of `ret`. -/
  | measure (f : File) (u : UserRead)
  | copyOut (f : File) (u : UserRead) (ret : ℤ)
  /-- `messages_count--`. -/
  | decrement
  | shift
  /-- The test for a free row. -/
  | room (u : UserWrite)
  /-- The test of `length`. -/
  | bound (u : UserWrite)
  | copyIn (u : UserWrite)
  /-- `messages_count++`. -/
  | increment (u : UserWrite)
  /-- `wake_up_interruptible(&messages_read_wq)`, in the write of `tp-V-03`. -/
  | wake (u : UserWrite)

/-- The module and the files after a statement, and the next statement or the answer; `counted` is
what follows `messages_count++`. -/
def Statement.exec [DecidableEq File] (abi : Abi) (counted : UserWrite → Statement File ⊕ Answer)
    (sh : Shared File) : Statement File → Shared File × (Statement File ⊕ Answer)
  | .empty f u =>
      if sh.queue.messagesCount = 0 then (sh, .inr (0, [])) else (sh, .inl (.measure f u))
  | .measure f u =>
      let ret := abi.ssize (sh.queue.strlenHead - sh.offset f)
      if ret ≤ 0 then (sh, .inl .decrement)
      else (sh, .inl (.copyOut f u (if ret > u.length then (u.length : ℤ) else ret)))
  | .copyOut f u ret =>
      let r := copyToUser (sh.queue.source u.outside (sh.offset f) ret.toNat) u.copied
      if r.2 ≠ 0 then (sh, .inr (-eFault, r.1))
      else ({ sh with offset := Function.update sh.offset f (sh.offset f + ret) }, .inr (ret, r.1))
  | .decrement => ({ sh with queue := sh.queue.decrement }, .inl .shift)
  | .shift => ({ sh with queue := sh.queue.shift }, .inr (0, []))
  | .room u =>
      if sh.queue.messagesCount = msgNbMax then (sh, .inr (-eNoMem, [])) else (sh, .inl (.bound u))
  | .bound u =>
      if (u.data.length : ℤ) ≥ msgLgMax then (sh, .inr (-eInval, [])) else (sh, .inl (.copyIn u))
  | .copyIn u =>
      let r := sh.queue.copyIn u.data u.copied
      if r.2 ≠ 0 then ({ sh with queue := r.1 }, .inr (-eFault, []))
      else ({ sh with queue := r.1 }, .inl (.increment u))
  | .increment u => ({ sh with queue := sh.queue.increment }, counted u)
  | .wake u => (sh, .inr (u.data.length, []))

/-- `messages_read` and `messages_write` of `tp-V-02`. -/
def TpV02.monitor [DecidableEq File] (abi : Abi) :
    Monitor (Shared File) (Call File) (Statement File) Answer where
  blocked _ _ := false
  entry
    | .read f u => .empty f u
    | .write _ u => .room u
  stmt _ sh l := l.exec abi (fun u => .inr (u.data.length, [])) sh
  wakes _ _ _ := false

/-- `messages_read` and `messages_write` of `tp-V-03`. -/
def TpV03.monitor [DecidableEq File] (abi : Abi) :
    Monitor (Shared File) (Call File) (Statement File) Answer where
  blocked
    | .read _ _, sh => sh.queue.messagesCount == 0
    | .write _ _, _ => false
  entry
    | .read f u => .measure f u
    | .write _ u => .room u
  stmt _ sh l := l.exec abi (fun u => .inl (.wake u)) sh
  wakes
    | _, .wake _, .read _ _ => true
    | _, _, _ => false

/-! ### A body alone -/

section Alone

variable [DecidableEq File] {abi : Abi} {counted : UserWrite → Statement File ⊕ Answer}
  {M : Monitor (Shared File) (Call File) (Statement File) Answer} {c : Call File}
  {sh : Shared File}

/-- From the measure of the head, a read does what `tp-V-01` does when there is a message. -/
theorem path_measure (hM : ∀ sh l, M.stmt c sh l = l.exec abi counted sh) {f : File} {u : UserRead}
    (h : sh.queue.messagesCount ≠ 0) :
    Relation.ReflTransGen (M.Next c) (sh, .inl (.measure f u))
      ((TpV01.call abi sh (.read f u)).after,
        .inr ((TpV01.call abi sh (.read f u)).ret, (TpV01.call abi sh (.read f u)).user)) := by
  rw [TpV04.call_read abi h]
  set lg := abi.ssize (sh.queue.strlenHead - sh.offset f) with hlg
  set n := if lg > u.length then (u.length : ℤ) else lg with hn
  by_cases hpos : lg ≤ 0
  · have hmeasure : M.stmt c sh (.measure f u) = (sh, .inl .decrement) :=
      (hM ..).trans (if_pos hpos)
    simp only [if_pos hpos]
    exact Monitor.path_of_stmt hmeasure (Monitor.path_of_stmt (hM ..)
      (Monitor.path_of_stmt (hM ..) .refl))
  · have hmeasure : M.stmt c sh (.measure f u) = (sh, .inl (.copyOut f u n)) :=
      (hM ..).trans (if_neg hpos)
    refine Monitor.path_of_stmt hmeasure ?_
    simp only [if_neg hpos]
    set r := copyToUser (sh.queue.source u.outside (sh.offset f) n.toNat) u.copied with hr
    by_cases hcopy : r.2 ≠ 0
    · rw [if_pos hcopy]
      exact Monitor.path_of_stmt ((hM ..).trans (if_pos hcopy)) .refl
    · rw [if_neg hcopy]
      exact Monitor.path_of_stmt ((hM ..).trans (if_neg hcopy)) .refl

/-- A write does what `tp-V-01` does. -/
theorem path_room (hM : ∀ sh l, M.stmt c sh l = l.exec abi counted sh) {f : File} {u : UserWrite}
    (hcounted : ∀ sh : Shared File, Relation.ReflTransGen (M.Next c) (sh, counted u)
      (sh, .inr (u.data.length, []))) :
    Relation.ReflTransGen (M.Next c) (sh, .inl (.room u))
      ((TpV01.call abi sh (.write f u)).after,
        .inr ((TpV01.call abi sh (.write f u)).ret, (TpV01.call abi sh (.write f u)).user)) := by
  by_cases hfull : sh.queue.messagesCount = msgNbMax
  · have hcall : TpV01.call abi sh (.write f u) = ⟨sh, -eNoMem, []⟩ := by
      simp only [TpV01.call, TpV01.messagesWrite, if_pos hfull, Outcome.effect,
        Function.update_eq_self]
    rw [hcall]
    exact Monitor.path_of_stmt ((hM ..).trans (if_pos hfull)) .refl
  refine Monitor.path_of_stmt ((hM ..).trans (if_neg hfull)) ?_
  rw [TpV04.call_write abi hfull]
  by_cases hlong : (u.data.length : ℤ) ≥ msgLgMax
  · simp only [if_pos hlong]
    exact Monitor.path_of_stmt ((hM ..).trans (if_pos hlong)) .refl
  refine Monitor.path_of_stmt ((hM ..).trans (if_neg hlong)) ?_
  simp only [if_neg hlong]
  set r := sh.queue.copyIn u.data u.copied with hr
  by_cases hcopy : r.2 ≠ 0
  · rw [if_pos hcopy]
    exact Monitor.path_of_stmt ((hM ..).trans (if_pos hcopy)) .refl
  · rw [if_neg hcopy]
    exact Monitor.path_of_stmt ((hM ..).trans (if_neg hcopy))
      (Monitor.path_of_stmt (hM ..) (hcounted _))

/-- **Alone, a call of `tp-V-02` is a call of `tp-V-01`.** -/
theorem TpV02.completes_call (abi : Abi) (c : Call File) (sh : Shared File) :
    (TpV02.monitor abi).Completes c sh (TpV01.call abi sh c).after
      ((TpV01.call abi sh c).ret, (TpV01.call abi sh c).user) := by
  cases c with
  | read f u =>
    by_cases h : sh.queue.messagesCount = 0
    · have hcall : TpV01.call abi sh (.read f u) = ⟨sh, 0, []⟩ := by
        simp only [TpV01.call, TpV01.messagesRead, if_pos h, Outcome.effect,
          Function.update_eq_self]
      rw [hcall]
      exact Monitor.path_of_stmt (if_pos h) .refl
    · exact Monitor.path_of_stmt (if_neg h) (path_measure (fun _ _ => rfl) h)
  | write f u => exact path_room (fun _ _ => rfl) fun _ => .refl

/-- **Alone, a call of `tp-V-03` that need not wait is a call of `tp-V-01`.** -/
theorem TpV03.completes_call (abi : Abi) (c : Call File) {sh : Shared File}
    (h : (TpV03.monitor abi).blocked c sh = false) :
    (TpV03.monitor abi).Completes c sh (TpV01.call abi sh c).after
      ((TpV01.call abi sh c).ret, (TpV01.call abi sh c).user) := by
  cases c with
  | read f u => exact path_measure (fun _ _ => rfl) (by simpa [TpV03.monitor] using h)
  | write f u => exact path_room (fun _ _ => rfl) fun _ => Monitor.path_of_stmt rfl .refl

end Alone

/-! ### The calls of a run -/

section Runs

variable {Pid : Type*} [DecidableEq File] {abi : Abi}
  {M : Monitor (Shared File) (Call File) (Statement File) Answer}

/-- When the calls do alone what `tp-V-01` does, the sections of a run are a replay of `tp-V-01`. -/
theorem replay_of_chain
    (hM : ∀ c sh, M.blocked c sh = false → M.Completes c sh (TpV01.call abi sh c).after
      ((TpV01.call abi sh c).ret, (TpV01.call abi sh c).user))
    {sh : Shared File} {xs : List (Monitor.Section Pid (Shared File) (Call File) Answer)}
    (h : M.Chain sh xs) :
    TpV01.replay abi sh (xs.map Monitor.Section.call) = xs.map sectionEffect := by
  induction xs generalizing sh with
  | nil => rfl
  | cons x xs ih =>
    obtain ⟨hb, hx, hrest⟩ := h
    rw [List.map_cons, List.map_cons, TpV01.replay, call_of_completes (hM x.call sh hb) hx]
    exact congrArg (List.cons (sectionEffect x)) (ih hrest)

variable [DecidableEq Pid] {s : Monitor.State Pid (Shared File) (Call File) (Statement File) Answer}
  {log : List (Monitor.Output Pid (Shared File) (Call File) Answer)}
  {acts : List (Monitor.Act Pid (Call File))} {offset : File → ℤ}

/-- **The locked queue refines the sequential one.** For every run of `tp-V-02`: the calls in the
order of their critical sections, replayed one after the other on `tp-V-01`, return the same values
and user bytes and leave the same module and offsets; with the mutex free, these are the present ones,
so the calls that a signal ended have changed nothing; and each process gets the values of its own
calls, in their order. -/
theorem locked_refines_sequential
    (hrun : ((TpV02.monitor abi).system Pid).exec
      (Monitor.init Pid _ _ _ ⟨Queue.init, offset⟩) acts = some (s, log)) :
    TpV01.replay abi ⟨Queue.init, offset⟩ ((Monitor.sections log).map Monitor.Section.call) =
        (Monitor.sections log).map sectionEffect ∧
      (s.mutex = none → s.object = Monitor.lastObject ⟨Queue.init, offset⟩ (Monitor.sections log)) ∧
      ∀ p, Monitor.completed p log = Monitor.returned p log ++ (s.proc p).pending :=
  ⟨replay_of_chain (fun c sh _ => TpV02.completes_call abi c sh) (Monitor.chain_of_run hrun),
    Monitor.object_of_run hrun, Monitor.accounts_of_run hrun⟩

set_option maxRecDepth 4000 in
/-- Two bytes are written and read. -/
theorem locked_refines_sequential_hi :
    ∃ (s : Monitor.State ℕ (Shared ℕ) (Call ℕ) (Statement ℕ) Answer)
      (log : List (Monitor.Output ℕ (Shared ℕ) (Call ℕ) Answer)),
      ((TpV02.monitor .lp64).system ℕ).exec (Monitor.init ℕ _ _ _ ⟨Queue.init, fun _ => 0⟩)
        (Monitor.Act.solo 0 (.write 0 ⟨[104, 105], 2⟩) 8 ++
          Monitor.Act.solo 1 (.read 1 ⟨8, 8, fun _ => 0⟩) 7) = some (s, log) ∧
      TpV01.replay .lp64 ⟨Queue.init, fun _ => 0⟩
          [.write 0 ⟨[104, 105], 2⟩, .read 1 ⟨8, 8, fun _ => 0⟩] =
        (Monitor.sections log).map sectionEffect := by
  obtain ⟨⟨s, log⟩, hrun⟩ :
    ∃ r, ((TpV02.monitor .lp64).system ℕ).exec (Monitor.init ℕ _ _ _ ⟨Queue.init, fun _ => 0⟩)
        (Monitor.Act.solo 0 (.write 0 ⟨[104, 105], 2⟩) 8 ++
          Monitor.Act.solo 1 (.read 1 ⟨8, 8, fun _ => 0⟩) 7) = some r := ⟨_, rfl⟩
  refine ⟨s, log, hrun, ?_⟩
  rw [← (locked_refines_sequential hrun).1]
  cases hrun
  rfl

/-- **The queue with a blocking read refines the sequential one**, in the same sense. -/
theorem blocking_read_refines_sequential
    (hrun : ((TpV03.monitor abi).system Pid).exec
      (Monitor.init Pid _ _ _ ⟨Queue.init, offset⟩) acts = some (s, log)) :
    TpV01.replay abi ⟨Queue.init, offset⟩ ((Monitor.sections log).map Monitor.Section.call) =
        (Monitor.sections log).map sectionEffect ∧
      (s.mutex = none → s.object = Monitor.lastObject ⟨Queue.init, offset⟩ (Monitor.sections log)) ∧
      ∀ p, Monitor.completed p log = Monitor.returned p log ++ (s.proc p).pending :=
  ⟨replay_of_chain (fun c _ hb => TpV03.completes_call abi c hb) (Monitor.chain_of_run hrun),
    Monitor.object_of_run hrun, Monitor.accounts_of_run hrun⟩

set_option maxRecDepth 4000 in
/-- A reader that finds no message waits for a writer. -/
theorem blocking_read_refines_sequential_hi :
    ∃ (s : Monitor.State ℕ (Shared ℕ) (Call ℕ) (Statement ℕ) Answer)
      (log : List (Monitor.Output ℕ (Shared ℕ) (Call ℕ) Answer)),
      ((TpV03.monitor .lp64).system ℕ).exec (Monitor.init ℕ _ _ _ ⟨Queue.init, fun _ => 0⟩)
        (Monitor.Act.solo 1 (.read 1 ⟨8, 8, fun _ => 0⟩) 7 ++
          Monitor.Act.solo 0 (.write 0 ⟨[104, 105], 2⟩) 9 ++ List.replicate 8 (.run 1)) =
        some (s, log) ∧
      TpV01.replay .lp64 ⟨Queue.init, fun _ => 0⟩
          [.write 0 ⟨[104, 105], 2⟩, .read 1 ⟨8, 8, fun _ => 0⟩] =
        (Monitor.sections log).map sectionEffect := by
  obtain ⟨⟨s, log⟩, hrun⟩ :
    ∃ r, ((TpV03.monitor .lp64).system ℕ).exec (Monitor.init ℕ _ _ _ ⟨Queue.init, fun _ => 0⟩)
        (Monitor.Act.solo 1 (.read 1 ⟨8, 8, fun _ => 0⟩) 7 ++
          Monitor.Act.solo 0 (.write 0 ⟨[104, 105], 2⟩) 9 ++ List.replicate 8 (.run 1)) =
        some r := ⟨_, rfl⟩
  refine ⟨s, log, hrun, ?_⟩
  rw [← (blocking_read_refines_sequential hrun).1]
  cases hrun
  rfl

end Runs

/-! ### Waiting for a message -/

section Waiting

variable [DecidableEq File] {abi : Abi}

/-- Before each statement of `tp-V-02` nothing need be known. -/
def TpV02.outline (abi : Abi) :
    (TpV02.monitor abi : Monitor (Shared File) (Call File) (Statement File) Answer).Outline where
  rest _ := True
  facts _ _ _ := True
  entry _ _ := trivial
  step _ _ := trivial
  last _ _ := trivial

/-- Nobody waits for anything in `tp-V-02`. -/
theorem TpV02.rouses (abi : Abi) :
    (TpV02.outline abi).Rouses fun (_ : Call File) _ _ => False := by
  rintro c l sh c' - (⟨hb, -⟩ | howes)
  · cases hb
  · exact howes.elim

/-- By how much a statement changes the number of messages. -/
def Statement.change : Statement File → ℤ
  | .decrement => -1
  | .increment _ => 1
  | _ => 0

theorem Statement.messagesCount_exec (counted : UserWrite → Statement File ⊕ Answer)
    (sh : Shared File) (l : Statement File) :
    (l.exec abi counted sh).1.queue.messagesCount = sh.queue.messagesCount + l.change := by
  cases l with
  | decrement | increment => rfl
  | shift => exact (Queue.messagesCount_shift _).trans (add_zero _).symm
  | wake => exact (add_zero _).symm
  | empty | measure | copyOut | room | bound | copyIn =>
    simp only [exec, change, add_zero]
    split_ifs <;> rfl

/-- What is known of the number of messages before each statement of `tp-V-03`. -/
def TpV03.Facts (count : ℤ) : Statement File → Prop
  | .measure _ _ | .copyOut _ _ _ | .decrement => 0 < count
  | .empty _ _ => False
  | _ => 0 ≤ count

theorem TpV03.facts_step {c : Call File} {sh : Shared File} {l l' : Statement File}
    (h : TpV03.Facts sh.queue.messagesCount l)
    (hl : ((TpV03.monitor abi).stmt c sh l).2 = .inl l') :
    TpV03.Facts ((TpV03.monitor abi).stmt c sh l).1.queue.messagesCount l' := by
  change (l.exec abi _ sh).2 = _ at hl
  change TpV03.Facts (l.exec abi _ sh).1.queue.messagesCount l'
  rw [Statement.messagesCount_exec]
  cases l with
  | empty => exact h.elim
  | shift | wake => cases hl
  | copyOut f u ret =>
    simp only [Statement.exec] at hl
    split_ifs at hl
  | decrement =>
    cases hl
    exact Int.sub_nonneg_of_le (Int.add_one_le_of_lt h)
  | increment u =>
    cases hl
    exact Int.le_add_one h
  | measure f u =>
    simp only [Statement.change, add_zero]
    simp only [Statement.exec] at hl
    split_ifs at hl <;> cases hl <;> exact h
  | room u | bound u | copyIn u =>
    simp only [Statement.change, add_zero]
    simp only [Statement.exec] at hl
    split_ifs at hl
    cases hl
    exact h

theorem TpV03.facts_last {c : Call File} {sh : Shared File} {l : Statement File} {r : Answer}
    (h : TpV03.Facts sh.queue.messagesCount l)
    (hl : ((TpV03.monitor abi).stmt c sh l).2 = .inr r) :
    0 ≤ ((TpV03.monitor abi).stmt c sh l).1.queue.messagesCount := by
  change 0 ≤ (l.exec abi _ sh).1.queue.messagesCount
  rw [Statement.messagesCount_exec]
  cases l with
  | empty => exact h.elim
  | decrement | increment => cases hl
  | measure | copyOut => exact (add_zero sh.queue.messagesCount).symm ▸ le_of_lt h
  | shift | room | bound | copyIn | wake => exact (add_zero sh.queue.messagesCount).symm ▸ h

/-- What is known before each statement of `tp-V-03`: a read enters its body with a message to read,
and the count never becomes negative. -/
def TpV03.outline (abi : Abi) :
    (TpV03.monitor abi : Monitor (Shared File) (Call File) (Statement File) Answer).Outline where
  rest sh := 0 ≤ sh.queue.messagesCount
  facts _ l sh := TpV03.Facts sh.queue.messagesCount l
  entry {c sh} hrest hb := by
    cases c with
    | read f u =>
      have hne : sh.queue.messagesCount ≠ 0 := by simpa [TpV03.monitor] using hb
      exact lt_of_le_of_ne hrest hne.symm
    | write f u => exact hrest
  step h hl := TpV03.facts_step h hl
  last h hl := TpV03.facts_last h hl

theorem TpV03.rest_init (abi : Abi) (offset : File → ℤ) :
    (TpV03.outline abi).rest ⟨Queue.init, offset⟩ := le_refl (0 : ℤ)

/-- After `messages_count++` the writer of `tp-V-03` owes the readers a wake-up. -/
def TpV03.owes : Call File → Statement File → Call File → Prop
  | _, .wake _, .read _ _ => True
  | _, _, _ => False

/-- A statement that lets a reader of `tp-V-03` go on is `messages_count++`. -/
theorem TpV03.rouses (abi : Abi) : (TpV03.outline abi).Rouses (TpV03.owes : Call File → _) := by
  intro c l sh c' hfacts hcause
  change TpV03.Facts sh.queue.messagesCount l at hfacts
  cases c' with
  | write f u =>
    rcases hcause with ⟨hb, -⟩ | howes
    · cases hb
    · cases l <;> exact howes.elim
  | read f u =>
    have hcount : ((TpV03.monitor abi).stmt c sh l).1.queue.messagesCount =
        sh.queue.messagesCount + l.change := Statement.messagesCount_exec _ _ _
    simp only [TpV03.monitor, beq_iff_eq, beq_eq_false_iff_ne] at hcause hcount
    rw [hcount] at hcause
    cases l with
    | wake => exact .inl rfl
    | increment u => exact .inr ⟨.wake u, rfl, trivial⟩
    | empty => exact hfacts.elim
    | decrement =>
      rcases hcause with ⟨hzero, -⟩ | howes
      · exact absurd hfacts (hzero ▸ lt_irrefl 0)
      · exact howes.elim
    | measure | copyOut | shift | room | bound | copyIn =>
      -- the count stays what it is
      rcases hcause with ⟨hzero, hne⟩ | howes
      · exact absurd hzero (by simpa [Statement.change] using hne)
      · exact howes.elim

section Runs

variable {Pid : Type*} [DecidableEq Pid]
  {s : Monitor.State Pid (Shared File) (Call File) (Statement File) Answer}
  {log : List (Monitor.Output Pid (Shared File) (Call File) Answer)}
  {acts : List (Monitor.Act Pid (Call File))} {offset : File → ℤ}

/-- **No lost wake-up in `tp-V-03`, and the lock discipline.** In every reachable state: when the mutex
is free, no reader sleeps, or is bound to, while there is a message; when it is held, such a reader is
still to be woken by the holder. No writer ever waits for anything but the mutex; whoever sleeps, or
is outside, does not hold the mutex; and whoever is about to release it holds it. -/
theorem blocking_read_wakeups
    (hrun : ((TpV03.monitor abi).system Pid).exec
      (Monitor.init Pid _ _ _ ⟨Queue.init, offset⟩) acts = some (s, log)) :
    (s.mutex = none → ∀ p f u w, s.proc p = .inside (.read f u) (.wait w) → w.Parked →
        s.object.queue.messagesCount = 0) ∧
      (∀ p f u w, s.proc p = .inside (.read f u) (.wait w) → w.Parked →
        s.object.queue.messagesCount = 0 ∨
          ∃ q c u', s.mutex = some q ∧ s.proc q = .inside c (.body (.wake u'))) ∧
      (∀ p f u w, s.proc p ≠ .inside (.write f u) (.wait w)) ∧
      (∀ p c, s.proc p = .outside ∨ s.proc p = .inside c (.wait .asleep) → s.mutex ≠ some p) ∧
      ∀ p c r, s.proc p = .inside c .unlockWait ∨ s.proc p = .inside c (.unlock r) →
        s.mutex = some p := by
  have hexcl : Monitor.Exclusive s := (Monitor.linear_of_run hrun).1
  refine ⟨fun hfree p f u w hp hw => ?_, fun p f u w hp hw => ?_, fun p f u w hp => ?_,
    fun p c hp hmutex => ?_, fun p c r hp => ?_⟩
  · have hb := Monitor.Outline.no_lost_wakeup (TpV03.rouses abi) (TpV03.rest_init abi offset)
      hrun hfree hp hw
    simpa [TpV03.monitor] using hb
  · have hparked := Monitor.parkedWell_of_run (TpV03.rouses abi) (TpV03.rest_init abi offset) hrun
    refine (hparked p _ w hp hw).imp (fun hb => by simpa [TpV03.monitor] using hb) ?_
    rintro ⟨q, c, l, hq, howes⟩
    cases l with
    | wake u' => exact ⟨q, c, u', (hexcl q).2 (by rw [hq]; rfl), hq⟩
    | _ => exact howes.elim
  · have hloop := Monitor.looping_of_run (c := .write f u) (fun _ => rfl) hrun p
    rw [hp] at hloop
    exact hloop rfl
  · have hholds := (hexcl p).1 hmutex
    rcases hp with hp | hp <;> rw [hp] at hholds <;> cases hholds
  · rw [hexcl p]
    rcases hp with hp | hp <;> rw [hp] <;> rfl

/-- A reader that finds no message goes to sleep without the mutex. -/
theorem blocking_read_wakeups_asleep :
    ∃ (s : Monitor.State ℕ (Shared ℕ) (Call ℕ) (Statement ℕ) Answer)
      (log : List (Monitor.Output ℕ (Shared ℕ) (Call ℕ) Answer)),
      ((TpV03.monitor .lp64).system ℕ).exec (Monitor.init ℕ _ _ _ ⟨Queue.init, fun _ => 0⟩)
        (Monitor.Act.solo 0 (.read 0 ⟨8, 8, fun _ => 0⟩) 7) = some (s, log) ∧
      s.proc 0 = .inside (.read 0 ⟨8, 8, fun _ => 0⟩) (.wait .asleep) ∧ s.mutex ≠ some 0 ∧
      s.object.queue.messagesCount = 0 := by
  obtain ⟨⟨s, log⟩, hrun⟩ :
    ∃ r, ((TpV03.monitor .lp64).system ℕ).exec (Monitor.init ℕ _ _ _ ⟨Queue.init, fun _ => 0⟩)
        (Monitor.Act.solo 0 (.read 0 ⟨8, 8, fun _ => 0⟩) 7) = some r := ⟨_, rfl⟩
  have h := blocking_read_wakeups hrun
  have hasleep : s.proc 0 = .inside (.read 0 ⟨8, 8, fun _ => 0⟩) (.wait .asleep) := by
    cases hrun
    rfl
  have hfree : s.mutex = none := by cases hrun; rfl
  exact ⟨s, log, hrun, hasleep, h.2.2.2.1 0 _ (.inr hasleep), h.1 hfree 0 0 _ _ hasleep (.inr rfl)⟩

end Runs

end Waiting

end IldDrivers
