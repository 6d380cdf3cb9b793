import IldDrivers.Messages.Locking
import IldDrivers.Messages.Rows

/-!
# The blocking queue behaves as the sequential one

A call of `tp-V-04` takes effect in its last critical section. The sections of a monitor are calls that
complete alone, one after the other; alone, the statements of `tp-V-04` do what the body of the `tp-V-01`
function does on a queue that is not empty, or not full (`completes_call`).

* `Chain`: in a list of last critical sections each one is a call of `tp-V-01`, made on what the
  previous one left; `chain_of_run`: the sections of every run form a chain from the module just loaded;
* `accounts_of_run`: each process is returned the values of its sections, in their order;
* `blocking_refines_sequential`: the refinement, with the calls that end by a signal.
-/

namespace IldDrivers

/-- A section that completes does what its call does alone. -/
theorem call_of_completes {Pid File ℓ : Type*} [DecidableEq File] {abi : Abi}
    {M : Monitor (Shared File) (Call File) ℓ Answer} {sh : Shared File}
    {x : Monitor.Section Pid (Shared File) (Call File) Answer}
    (hM : M.Completes x.call sh (TpV01.call abi sh x.call).after
      ((TpV01.call abi sh x.call).ret, (TpV01.call abi sh x.call).user))
    (hx : M.Completes x.call sh x.after x.ret) : TpV01.call abi sh x.call = sectionEffect x := by
  obtain ⟨hafter, hret⟩ := hM.unique hx
  rw [sectionEffect, ← hafter, ← hret]

namespace TpV04

variable {Pid File : Type*}

/-- The last critical sections of a run, in their order. -/
def sections (log : List (Output Pid File)) : List (Section Pid File) :=
  log.filterMap fun o => match o with
    | .finished x => some x
    | .returned _ _ _ => none

/-- The module and the files as the last of these sections left them. -/
def lastShared (start : Shared File) (xs : List (Section Pid File)) : Shared File :=
  xs.foldl (fun _ x => x.effect.after) start

@[simp] theorem sections_nil : sections ([] : List (Output Pid File)) = [] := rfl

theorem sections_append (log log' : List (Output Pid File)) :
    sections (log ++ log') = sections log ++ sections log' := List.filterMap_append

@[simp] theorem sections_finished (x : Section Pid File) : sections [.finished x] = [x] := rfl

@[simp] theorem sections_returned (p : Pid) (c : Call File) (r : ℤ) :
    sections [.returned p c r] = [] := rfl

@[simp] theorem lastShared_nil (start : Shared File) :
    lastShared start ([] : List (Section Pid File)) = start := rfl

@[simp] theorem lastShared_snoc (start : Shared File) (xs : List (Section Pid File))
    (x : Section Pid File) : lastShared start (xs ++ [x]) = x.effect.after := by
  simp [lastShared]

theorem sections_ofMonitor (mlog : List (MonitorOutput Pid File)) :
    sections (mlog.map Output.ofMonitor) = (Monitor.sections mlog).map asSection := by
  rw [sections, Monitor.sections, List.filterMap_map, List.map_filterMap]
  congr 1
  funext o
  cases o <;> rfl

theorem lastShared_asSection (start : Shared File)
    (xs : List (Monitor.Section Pid (Shared File) (Call File) Answer)) :
    lastShared start (xs.map asSection) = Monitor.lastObject start xs := by
  unfold lastShared Monitor.lastObject
  rw [List.foldl_map]
  rfl

variable [DecidableEq File]

/-- Each section is a call of `tp-V-01` that need not wait, on what the previous one left. -/
def Chain (abi : Abi) : Shared File → List (Section Pid File) → Prop
  | _, [] => True
  | sh, x :: xs => blocked x.call sh.queue = false ∧ TpV01.call abi sh x.call = x.effect ∧
      Chain abi x.effect.after xs

/-- Replaying the calls of a chain gives its effects. -/
theorem Chain.replay {abi : Abi} {sh : Shared File} {xs : List (Section Pid File)}
    (h : Chain abi sh xs) :
    TpV01.replay abi sh (xs.map Section.call) = xs.map Section.effect := by
  induction xs generalizing sh with
  | nil => rfl
  | cons x xs ih =>
    rw [List.map_cons, List.map_cons, TpV01.replay, h.2.1]
    exact congrArg (List.cons x.effect) (ih h.2.2)

/-! ### A critical section alone -/

/-- What `messages_read` of `tp-V-01` does on a queue that is not empty. -/
theorem call_read (abi : Abi) {sh : Shared File} {f : File} {u : UserRead}
    (h : sh.queue.messagesCount ≠ 0) :
    TpV01.call abi sh (.read f u) =
      let lg := abi.ssize (sh.queue.strlenHead - sh.offset f)
      let n := if lg > u.length then (u.length : ℤ) else lg
      let r := copyToUser (sh.queue.source u.outside (sh.offset f) n.toNat) u.copied
      if lg ≤ 0 then ⟨{ sh with queue := sh.queue.decrement.shift }, 0, []⟩
      else if r.2 ≠ 0 then ⟨sh, -eFault, r.1⟩
      else ⟨{ sh with offset := Function.update sh.offset f (sh.offset f + n) }, n, r.1⟩ := by
  simp only [TpV01.call, TpV01.messagesRead, if_neg h]
  split_ifs <;> simp only [Outcome.effect, Function.update_eq_self]

/-- What `messages_write` of `tp-V-01` does on a queue that is not full. -/
theorem call_write (abi : Abi) {sh : Shared File} {f : File} {u : UserWrite}
    (h : sh.queue.messagesCount ≠ msgNbMax) :
    TpV01.call abi sh (.write f u) =
      let r := sh.queue.copyIn u.data u.copied
      if (u.data.length : ℤ) ≥ msgLgMax then ⟨sh, -eInval, []⟩
      else if r.2 ≠ 0 then ⟨{ sh with queue := r.1 }, -eFault, []⟩
      else ⟨{ sh with queue := r.1.increment }, u.data.length, []⟩ := by
  simp only [TpV01.call, TpV01.messagesWrite, if_neg h]
  split_ifs <;> simp only [Outcome.effect, Function.update_eq_self]

/-- The first statement of a path, and the others. -/
theorem path_of_bodyStep {abi : Abi} {c : Call File} {sh sh' : Shared File} {pc pc' : Pc File}
    {z : Shared File × (Pc File ⊕ Answer)} (h : bodyStep abi c sh pc = (sh', pc'))
    (hrest : Relation.ReflTransGen ((monitor abi).Next c) (sh', pc'.following) z) :
    Relation.ReflTransGen ((monitor abi).Next c) (sh, .inl pc) z :=
  Monitor.path_of_stmt (show (monitor abi).stmt c sh pc = (sh', pc'.following) by simp [monitor, h])
    hrest

/-- **Alone, a call of `tp-V-04` that need not wait is a call of `tp-V-01`.** -/
theorem completes_call (abi : Abi) (c : Call File) {sh : Shared File}
    (h : (monitor abi).blocked c sh = false) :
    (monitor abi).Completes c sh (TpV01.call abi sh c).after
      ((TpV01.call abi sh c).ret, (TpV01.call abi sh c).user) := by
  cases c with
  -- removal of the head, or a copy that may fail
  | read f u =>
    rw [call_read abi (by simpa [monitor, blocked] using h)]
    set lg := abi.ssize (sh.queue.strlenHead - sh.offset f) with hlg
    set n := if lg > u.length then (u.length : ℤ) else lg with hn
    by_cases hpos : lg ≤ 0
    · have hbody : bodyStep abi (.read f u) sh .body = (sh, .decrement) := if_pos hpos
      simp only [if_pos hpos]
      exact path_of_bodyStep hbody (path_of_bodyStep rfl (path_of_bodyStep rfl
        (path_of_bodyStep rfl .refl)))
    · have hbody : bodyStep abi (.read f u) sh .body = (sh, .copyOut f u n) := if_neg hpos
      refine path_of_bodyStep hbody ?_
      simp only [if_neg hpos]
      set r := copyToUser (sh.queue.source u.outside (sh.offset f) n.toNat) u.copied with hr
      by_cases hcopy : r.2 ≠ 0
      · rw [if_pos hcopy]
        exact path_of_bodyStep (if_pos hcopy) .refl
      · rw [if_neg hcopy]
        exact path_of_bodyStep (if_neg hcopy) .refl
  | write f u =>
    have hlt : sh.queue.messagesCount < msgNbMax := by simpa [monitor, blocked] using h
    rw [call_write abi hlt.ne]
    by_cases hlong : (u.data.length : ℤ) ≥ msgLgMax
    · simp only [if_pos hlong]
      exact path_of_bodyStep (if_pos hlong) .refl
    · refine path_of_bodyStep (if_neg hlong) ?_
      simp only [if_neg hlong]
      set r := sh.queue.copyIn u.data u.copied with hr
      by_cases hcopy : r.2 ≠ 0
      · rw [if_pos hcopy]
        exact path_of_bodyStep (if_pos hcopy) .refl
      · rw [if_neg hcopy]
        exact path_of_bodyStep (if_neg hcopy) (path_of_bodyStep rfl (path_of_bodyStep rfl .refl))

/-- The sections of the monitor are calls of `tp-V-01`. -/
theorem chain_asSection {abi : Abi} {sh : Shared File}
    {xs : List (Monitor.Section Pid (Shared File) (Call File) Answer)}
    (h : (monitor abi).Chain sh xs) : Chain abi sh (xs.map asSection) := by
  induction xs generalizing sh with
  | nil => trivial
  | cons x xs ih =>
    obtain ⟨hb, hx, hrest⟩ := h
    exact ⟨hb, call_of_completes (completes_call abi x.call hb) hx, ih hrest⟩

/-! ### Every run -/

variable [DecidableEq Pid] {abi : Abi} {s : State Pid File} {log : List (Output Pid File)}
  {offset : File → ℤ} {acts : List (Act Pid File)}

/-- The sections of a run form a chain from the module just loaded. -/
theorem chain_of_run (hrun : (system abi Pid File).exec (init Pid offset) acts = some (s, log)) :
    Chain abi ⟨Queue.init, offset⟩ (sections log) := by
  obtain ⟨m, mlog, hm, -, rfl⟩ := exec_toMonitor hrun
  rw [sections_ofMonitor]
  exact chain_asSection (Monitor.chain_of_run hm)

/-- When the mutex is free, the module is as the last section left it. -/
theorem shared_of_run (hrun : (system abi Pid File).exec (init Pid offset) acts = some (s, log))
    (hfree : s.mutex = none) : s.shared = lastShared ⟨Queue.init, offset⟩ (sections log) := by
  obtain ⟨m, mlog, hm, h, rfl⟩ := exec_toMonitor hrun
  rw [sections_ofMonitor, lastShared_asSection, ← h.object]
  exact Monitor.object_of_run hm (h.mutex.trans hfree)

/-! ### What the calls return -/

/-- The calls of process `p` that have had their last critical section, with the values they are
to return. -/
def completed (p : Pid) (log : List (Output Pid File)) : List (Call File × ℤ) :=
  (sections log).filterMap fun x => if x.pid = p then some (x.call, x.effect.ret) else none

/-- The calls of process `p` that have returned something else than `-ERESTARTSYS`, with the values
returned. -/
def returned (p : Pid) (log : List (Output Pid File)) : List (Call File × ℤ) :=
  log.filterMap fun o => match o with
    | .returned q c r => if q = p ∧ r ≠ -eRestartSys then some (c, r) else none
    | .finished _ => none

/-- The value a process is about to return, if it is not `-ERESTARTSYS`. -/
def Proc.pending : Proc File → List (Call File × ℤ)
  | .call c (.ret r) => if r ≠ -eRestartSys then [(c, r)] else []
  | _ => []

/-- The value of an answer is what matters to the caller of `read` or `write`. -/
def answerValue (x : Call File × Answer) : Call File × ℤ := (x.1, x.2.1)

omit [DecidableEq File] in
theorem completed_ofMonitor (p : Pid) (mlog : List (MonitorOutput Pid File)) :
    completed p (mlog.map Output.ofMonitor) = (Monitor.completed p mlog).map answerValue := by
  rw [completed, sections_ofMonitor, List.filterMap_map, Monitor.completed, List.map_filterMap]
  congr 1
  funext x
  by_cases hx : x.pid = p <;> simp [asSection, sectionEffect, answerValue, hx]

/-- A call that need not wait does not return `-ERESTARTSYS`. -/
theorem call_ret_ne {c : Call File} {sh : Shared File} (h : blocked c sh.queue = false) :
    (TpV01.call abi sh c).ret ≠ -eRestartSys := by
  cases c with
  | read f u =>
    rw [call_read abi (by simpa [blocked] using h)]
    simp only [eRestartSys, eFault]
    split_ifs <;> simp only <;> omega
  | write f u =>
    have hlt : sh.queue.messagesCount < msgNbMax := by simpa [blocked] using h
    rw [call_write abi hlt.ne]
    simp only [eRestartSys, eFault, eInval]
    split_ifs <;> simp only <;> omega

/-- A value that no signal has made. -/
def Given (x : Call File × ℤ) : Prop := x.2 ≠ -eRestartSys

instance (x : Call File × ℤ) : Decidable (Given x) := inferInstanceAs (Decidable (_ ≠ _))

omit [DecidableEq File] in
theorem returned_ofMonitor (p : Pid) (mlog : List (MonitorOutput Pid File)) :
    returned p (mlog.map Output.ofMonitor) =
      ((Monitor.returned p mlog).map answerValue).filter (fun x => Given x) := by
  induction mlog with
  | nil => rfl
  | cons o mlog ih =>
    have hsplit := Monitor.returned_append p [o] mlog
    have hsplit' : returned p ((o :: mlog).map Output.ofMonitor) =
        returned p [Output.ofMonitor o] ++ returned p (mlog.map Output.ofMonitor) :=
      List.filterMap_append (l := [Output.ofMonitor o])
    rw [hsplit', ih, show o :: mlog = [o] ++ mlog from rfl, hsplit, List.map_append,
      List.filter_append]
    congr 1
    cases o with
    | finished x => rfl
    | returned q c a =>
      by_cases hq : q = p
      · cases a with
        | none => simp [returned, Monitor.returned, Output.ofMonitor, valueOf, hq]
        | some x =>
          by_cases hx : x.1 = -eRestartSys <;>
            simp [returned, Monitor.returned, Output.ofMonitor, valueOf, answerValue, Given, hq, hx]
      · simp [returned, Monitor.returned, Output.ofMonitor, hq]

omit [DecidableEq File] [DecidableEq Pid] in
theorem pending_of_at {x : Proc File} {y : Monitor.Proc (Call File) (Pc File) Answer} (h : x.At y) :
    x.pending = (y.pending.map answerValue).filter (fun x => Given x) := by
  cases h with
  | user => rfl
  | @call c pc pt hpc =>
    cases hpc with
    | body _ hbody => cases pc <;> first | rfl | cases hbody
    | lock | relock | loop | unlockWait | wait | wake | unlock => rfl
    | ret a =>
      cases a with
      | none => simp [Proc.pending, Monitor.Proc.pending, valueOf]
      | some x =>
        by_cases hx : x.1 = -eRestartSys <;>
          simp [Proc.pending, Monitor.Proc.pending, valueOf, answerValue, Given, hx]

/-- What the sections compute is given. -/
theorem given_of_completed {m : MonitorState Pid File} {mlog : List (MonitorOutput Pid File)}
    {macts : List (Monitor.Act Pid (Call File))} {start : Shared File}
    (hm : ((monitor abi).system Pid).exec (Monitor.init Pid _ _ _ start) macts = some (m, mlog))
    {p : Pid} {x : Call File × Answer} (hx : x ∈ Monitor.completed p mlog) :
    Given (answerValue x) := by
  have hsections : ∀ {sh : Shared File}
      {ys : List (Monitor.Section Pid (Shared File) (Call File) Answer)},
      (monitor abi).Chain sh ys → ∀ y ∈ ys, y.ret.1 ≠ -eRestartSys := by
    intro sh ys hchain y hy
    induction ys generalizing sh with
    | nil => cases hy
    | cons z zs ih =>
      obtain ⟨hb, hz, hrest⟩ := hchain
      rcases List.mem_cons.1 hy with rfl | hy
      · have hcall := call_of_completes (completes_call abi y.call hb) hz
        have hne : (TpV01.call abi sh y.call).ret ≠ -eRestartSys := call_ret_ne hb
        rwa [hcall] at hne
      · exact ih hrest hy
  obtain ⟨y, hy, hxy⟩ := List.mem_filterMap.1 hx
  split_ifs at hxy
  cases hxy
  exact hsections (Monitor.chain_of_run hm) y hy

/-- Every call that has had its last critical section has returned the value computed there, or is
about to. -/
theorem accounts_of_run (hrun : (system abi Pid File).exec (init Pid offset) acts = some (s, log))
    (p : Pid) : completed p log = returned p log ++ (s.proc p).pending := by
  obtain ⟨m, mlog, hm, h, rfl⟩ := exec_toMonitor hrun
  have hgiven : ∀ y ∈ (Monitor.completed p mlog).map answerValue, decide (Given y) = true := by
    intro y hy
    obtain ⟨x, hx, rfl⟩ := List.mem_map.1 hy
    exact decide_eq_true (given_of_completed hm hx)
  rw [completed_ofMonitor, returned_ofMonitor, pending_of_at (h.proc p),
    ← List.filter_eq_self.2 hgiven, Monitor.accounts_of_run hm p, List.map_append,
    List.filter_append]

/-! ### Calls ended by a signal -/

/-- The process an action concerns. -/
def Act.pid : Act Pid File → Pid
  | .start p _ | .run p | .signal p => p

/-- The step, if it is one of process `p`, leaves the array, the count and the offsets alone. -/
def LeavesShared (abi : Abi) (p : Pid) (s : State Pid File) (a : Act Pid File) : Prop :=
  a.pid = p → ∀ s' out, step abi s a = some (s', out) → s'.shared = s.shared

/-- No statement of a call that is about to return `-ERESTARTSYS` has changed anything. -/
theorem leavesShared_of_interrupted {acts₁ acts₂ : List (Act Pid File)} {p : Pid} {c : Call File}
    {s₁ : State Pid File} {log₁ log₂ : List (Output Pid File)}
    (hrun₁ : (system abi Pid File).exec (init Pid offset) acts₁ = some (s₁, log₁))
    (hrun₂ : (system abi Pid File).exec s₁ acts₂ = some (s, log₂))
    (hlog : ∀ c r, Output.returned p c r ∉ log₂) (hret : s.proc p = .call c (.ret (-eRestartSys))) :
    (system abi Pid File).Along (LeavesShared abi p) s₁ acts₂ := by
  obtain ⟨m₁, mlog₁, hm₁, h₁, -⟩ := exec_toMonitor hrun₁
  obtain ⟨m, mlog₂, hm₂, h, rfl⟩ := (lockstep abi).exec h₁ hrun₂
  have hend : ¬ (m.proc p).Committed := by
    obtain ⟨a, hp, ha⟩ := h.returning hret
    rw [hp]
    cases a with
    | none => exact id
    | some x =>
      -- an answer would be the value of a section, and these are other values
      have hmem : (c, x) ∈ Monitor.completed p (mlog₁ ++ mlog₂) := by
        rw [Monitor.accounts_of_run (System.exec_append hm₁ hm₂) p, hp]
        exact List.mem_append_right _ (List.mem_singleton_self _)
      exact absurd ha (given_of_completed (System.exec_append hm₁ hm₂) hmem)
  have hmlog : ∀ c a, .returned p c a ∉ mlog₂ := fun c a hm => hlog c _ (List.mem_map_of_mem hm)
  refine (lockstep abi).along (fun s t a hst hQ ha s' out hstep => ?_) h₁
    (Monitor.leavesObject_of_run hm₂ hmlog hend)
  obtain ⟨t', out', ht, hst', -⟩ := (lockstep abi).step hst hstep
  rw [← hst'.object, ← hst.object]
  exact hQ (by rw [← ha]; cases a <;> rfl) t' out' ht

/-- **The blocking, locked queue refines the sequential one.** For every run: the calls in the order
of their last critical sections, replayed one after the other on `tp-V-01`, return the same values
and leave the same array, count, offsets and user bytes; when the mutex is free, the module is as
the last of them left it; each process has been returned the values computed in its sections, in
their order, and `-ERESTARTSYS` for its other calls; and no statement of a call that comes to
return `-ERESTARTSYS` changes the array, the count or an offset. The processes may share open
files: the offsets are only used with the mutex held. -/
theorem blocking_refines_sequential {offset : File → ℤ} {acts : List (Act Pid File)}
    (hrun : (system abi Pid File).exec (init Pid offset) acts = some (s, log)) :
    TpV01.replay abi ⟨Queue.init, offset⟩ ((sections log).map Section.call) =
      (sections log).map Section.effect ∧
    (s.mutex = none → s.shared = lastShared ⟨Queue.init, offset⟩ (sections log)) ∧
    (∀ p, completed p log = returned p log ++ (s.proc p).pending) ∧
    ∀ p c acts₁ acts₂ s₁ log₁ log₂, acts = acts₁ ++ acts₂ →
      (system abi Pid File).exec (init Pid offset) acts₁ = some (s₁, log₁) →
      s₁.proc p = .call c .lock →
      (system abi Pid File).exec s₁ acts₂ = some (s, log₂) →
      (∀ c' r, Output.returned p c' r ∉ log₂) → s.proc p = .call c (.ret (-eRestartSys)) →
      (system abi Pid File).Along (LeavesShared abi p) s₁ acts₂ :=
  ⟨(chain_of_run hrun).replay, shared_of_run hrun, accounts_of_run hrun,
    fun _ _ _ _ _ _ _ _ hrun₁ _ hrun₂ hlog hret =>
      leavesShared_of_interrupted hrun₁ hrun₂ hlog hret⟩

/-- A reader sleeps, a writer wakes it, the reader reads the message. -/
theorem blocking_refines_sequential_handover :
    ∃ (s : State ℕ ℕ) (log : List (Output ℕ ℕ)),
      (system .lp64 ℕ ℕ).exec (init ℕ fun _ => 0)
        (Act.solo 1 (.read 1 ⟨8, 8, fun _ => 0⟩) 7 ++ Act.solo 0 (.write 0 ⟨[104, 105], 2⟩) 8 ++
          List.replicate 8 (.run 1)) = some (s, log) ∧
      (sections log).map (fun x => (x.pid, x.effect.ret, x.effect.user)) =
        [(0, 2, []), (1, 2, [104, 105])] ∧
      TpV01.replay .lp64 ⟨Queue.init, fun _ => 0⟩ ((sections log).map Section.call) =
        (sections log).map Section.effect := by
  obtain ⟨⟨s, log⟩, hrun, hlog⟩ := Option.map_eq_some_iff.1
    (show ((system .lp64 ℕ ℕ).exec (init ℕ fun _ => 0)
        (Act.solo 1 (.read 1 ⟨8, 8, fun _ => 0⟩) 7 ++ Act.solo 0 (.write 0 ⟨[104, 105], 2⟩) 8 ++
          List.replicate 8 (.run 1))).map
        (fun r => (sections r.2).map fun x => (x.pid, x.effect.ret, x.effect.user)) =
      some [(0, 2, []), (1, 2, [104, 105])] by decide +kernel)
  exact ⟨s, log, hrun, hlog, (blocking_refines_sequential hrun).1⟩


end TpV04

end IldDrivers
