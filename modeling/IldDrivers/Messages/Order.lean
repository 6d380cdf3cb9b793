import IldDrivers.Messages.Contents
import IldDrivers.Messages.Versions

/-!
# The order of the messages in the earlier versions

What `Messages/Contents` shows of the sections of `tp-V-04` holds of any calls of `tp-V-01` one after
the other, also of those that find no message or no room: these change nothing. Since the calls of
`tp-V-02` and `tp-V-03` are such calls in every run, both keep the messages in bounds and in order.

* `TpV04.Holds.call`: one call of `tp-V-01`;
* `holds_of_replay`: any number of them;
* `locked_queues_are_fifo`: every run of `tp-V-02` and `tp-V-03`.
-/

namespace IldDrivers

open TpV04 (Accepted Holds queued queueOp does_call)

variable {Pid File : Type*} [DecidableEq File] {abi : Abi}

variable (Pid) in
/-- A call that finds no message or no room changes nothing. -/
theorem call_of_blocked {c : Call File} {sh : Shared File} (hsound : sh.queue.Sound)
    (h : TpV04.blocked c sh.queue = true) :
    (TpV01.call abi sh c).after = sh ∧ ∀ p, queueOp sh.queue
      (⟨p, c, TpV01.call abi sh c⟩ : TpV04.Section Pid File) = .keep := by
  cases c with
  | read f u =>
    have hzero : sh.queue.messagesCount = 0 := by simpa [TpV04.blocked] using h
    have hcall : TpV01.call abi sh (.read f u) = ⟨sh, 0, []⟩ := by
      simp only [TpV01.call, TpV01.messagesRead, if_pos hzero, Outcome.effect,
        Function.update_eq_self]
    refine ⟨by rw [hcall], fun p => ?_⟩
    simp only [queueOp, hcall, lt_irrefl, if_false]
  | write f u =>
    have hge : msgNbMax ≤ sh.queue.messagesCount := by simpa [TpV04.blocked] using h
    have hfull : sh.queue.messagesCount = msgNbMax := le_antisymm hsound.le_max hge
    have hcall : TpV01.call abi sh (.write f u) = ⟨sh, -eNoMem, []⟩ := by
      simp only [TpV01.call, TpV01.messagesWrite, if_pos hfull, Outcome.effect,
        Function.update_eq_self]
    refine ⟨by rw [hcall], fun p => ?_⟩
    simp only [queueOp, hcall]
    exact if_neg (by decide)

/-- One call of `tp-V-01`. -/
theorem TpV04.Holds.call {sh : Shared File} {items : List (Accepted Pid File)}
    (h : Holds sh.queue items) {x : TpV04.Section Pid File}
    (hx : TpV01.call abi sh x.call = x.effect) :
    Holds x.effect.after.queue (Fifo.apply items (queueOp sh.queue x)) := by
  cases hb : TpV04.blocked x.call sh.queue with
  | false => exact h.section (hx ▸ does_call hb)
  | true =>
    obtain ⟨p, c, e⟩ := x
    simp only at hx hb
    subst hx
    obtain ⟨hafter, hkeep⟩ := call_of_blocked Pid h.sound hb
    rw [hkeep p, Fifo.apply, hafter]
    exact h

/-- A call of `tp-V-01` that fails leaves the count and the rows in use alone. -/
theorem call_of_failure {c : Call File} {sh : Shared File} (hsound : sh.queue.Sound)
    (hret : (TpV01.call abi sh c).ret < 0) :
    (TpV01.call abi sh c).after.queue.messagesCount = sh.queue.messagesCount ∧
      (TpV01.call abi sh c).after.queue.rows = sh.queue.rows := by
  cases hb : TpV04.blocked c sh.queue with
  | false => exact (does_call hb).of_failure hret
  | true =>
    rw [(call_of_blocked Unit hsound hb).1]
    exact ⟨rfl, rfl⟩

/-- Calls of `tp-V-01` one after the other. -/
theorem holds_of_replay {sh : Shared File} {items : List (Accepted Pid File)}
    (h : Holds sh.queue items) {xs : List (TpV04.Section Pid File)}
    (hxs : TpV01.replay abi sh (xs.map TpV04.Section.call) = xs.map TpV04.Section.effect) :
    Holds (TpV04.lastShared sh xs).queue (Fifo.replay items (TpV04.queueOps sh.queue xs)) := by
  induction xs generalizing sh items with
  | nil => exact h
  | cons x xs ih =>
    rw [List.map_cons, List.map_cons, TpV01.replay, List.cons.injEq] at hxs
    have hrest := ih (h.call hxs.1) (hxs.1 ▸ hxs.2)
    exact hrest

/-- The messages after sections that replay `tp-V-01`, and what a failing one of them does. -/
structure KeepsOrder (start : Shared File) (xs : List (TpV04.Section Pid File)) : Prop where
  holds : Holds (TpV04.lastShared start xs).queue (queued start.queue xs)
  failing : ∀ ys x zs, xs = ys ++ x :: zs → x.effect.ret < 0 →
    x.effect.after.queue.messagesCount = (TpV04.lastShared start ys).queue.messagesCount ∧
      x.effect.after.queue.rows = (TpV04.lastShared start ys).queue.rows
  head : ∀ ys x zs, xs = ys ++ x :: zs → (TpV04.lastShared start ys).queue.strlenHead < 32

theorem replay_append_left {sh : Shared File} {xs ys : List (TpV04.Section Pid File)}
    (h : TpV01.replay abi sh ((xs ++ ys).map TpV04.Section.call) =
      (xs ++ ys).map TpV04.Section.effect) :
    TpV01.replay abi sh (xs.map TpV04.Section.call) = xs.map TpV04.Section.effect ∧
      TpV01.replay abi (TpV04.lastShared sh xs) (ys.map TpV04.Section.call) =
        ys.map TpV04.Section.effect := by
  induction xs generalizing sh with
  | nil => exact ⟨rfl, h⟩
  | cons x xs ih =>
    simp only [List.cons_append, List.map_cons, TpV01.replay, List.cons.injEq] at h ⊢
    have hrest := ih (h.1 ▸ h.2)
    exact ⟨⟨h.1, h.1.symm ▸ hrest.1⟩, hrest.2⟩

theorem keepsOrder_of_replay {start : Shared File} (hstart : start.queue = Queue.init)
    {xs : List (TpV04.Section Pid File)}
    (hxs : TpV01.replay abi start (xs.map TpV04.Section.call) = xs.map TpV04.Section.effect) :
    KeepsOrder start xs := by
  have hinit : Holds start.queue ([] : List (Accepted Pid File)) := hstart ▸ TpV04.holds_init
  have hbefore : ∀ ys x zs, xs = ys ++ x :: zs →
      (TpV04.lastShared start ys).queue.Sound ∧
        TpV01.call abi (TpV04.lastShared start ys) x.call = x.effect := by
    rintro ys x zs rfl
    obtain ⟨hys, hrest⟩ := replay_append_left hxs
    rw [List.map_cons, List.map_cons, TpV01.replay, List.cons.injEq] at hrest
    exact ⟨(holds_of_replay hinit hys).sound, hrest.1⟩
  refine ⟨holds_of_replay hinit hxs, fun ys x zs h hret => ?_, fun ys x zs h => ?_⟩
  · obtain ⟨hsound, hcall⟩ := hbefore ys x zs h
    rw [← hcall] at hret ⊢
    exact call_of_failure hsound hret
  · have hle := (hbefore ys x zs h).1.strlenHead_le
    omega

/-- **The messages of `tp-V-02` and `tp-V-03` are in bounds and in order.** In every run of either, when
the mutex is free, the count is in bounds, the last byte of every row is NUL, and the rows in use are,
byte for byte, those of the successful writes not yet removed; a call that fails leaves the count and
these rows as they were; and `strlen(messages_array[0])` ends inside row 0. -/
theorem locked_queues_are_fifo [DecidableEq Pid] {offset : File → ℤ}
    {M : Monitor (Shared File) (Call File) (Statement File) Answer}
    (hM : M = TpV02.monitor abi ∨ M = TpV03.monitor abi)
    {s : Monitor.State Pid (Shared File) (Call File) (Statement File) Answer}
    {log : List (Monitor.Output Pid (Shared File) (Call File) Answer)}
    {acts : List (Monitor.Act Pid (Call File))}
    (hrun : (M.system Pid).exec (Monitor.init Pid _ _ _ ⟨Queue.init, offset⟩) acts = some (s, log)) :
    (s.mutex = none → s.object.queue.Sound ∧
      s.object.queue.rows =
        (queued Queue.init ((Monitor.sections log).map asSection)).map Accepted.row) ∧
    KeepsOrder ⟨Queue.init, offset⟩ ((Monitor.sections log).map asSection) := by
  have hcalls : ∀ c sh, M.blocked c sh = false → M.Completes c sh (TpV01.call abi sh c).after
      ((TpV01.call abi sh c).ret, (TpV01.call abi sh c).user) := by
    rcases hM with rfl | rfl
    · exact fun c sh _ => TpV02.completes_call abi c sh
    · exact fun c _ hb => TpV03.completes_call abi c hb
  have hreplay := replay_of_chain hcalls (Monitor.chain_of_run hrun)
  have horder : KeepsOrder ⟨Queue.init, offset⟩ ((Monitor.sections log).map asSection) :=
    keepsOrder_of_replay rfl (by rw [List.map_map, List.map_map]; exact hreplay)
  refine ⟨fun hfree => ?_, horder⟩
  rw [Monitor.object_of_run hrun hfree, ← TpV04.lastShared_asSection]
  exact ⟨horder.holds.sound, horder.holds.rows⟩

/-- One write. -/
theorem locked_queues_are_fifo_write :
    ∃ (s : Monitor.State ℕ (Shared ℕ) (Call ℕ) (Statement ℕ) Answer)
      (log : List (Monitor.Output ℕ (Shared ℕ) (Call ℕ) Answer)),
      ((TpV03.monitor .lp64).system ℕ).exec (Monitor.init ℕ _ _ _ ⟨Queue.init, fun _ => 0⟩)
        (Monitor.Act.solo 0 (.write 0 ⟨[104, 105], 2⟩) 9) = some (s, log) ∧
      s.object.queue.messagesCount = 1 ∧
      s.object.queue.rows =
        (queued Queue.init ((Monitor.sections log).map asSection)).map Accepted.row := by
  obtain ⟨⟨s, log⟩, hrun⟩ :
    ∃ r, ((TpV03.monitor .lp64).system ℕ).exec (Monitor.init ℕ _ _ _ ⟨Queue.init, fun _ => 0⟩)
        (Monitor.Act.solo 0 (.write 0 ⟨[104, 105], 2⟩) 9) = some r := ⟨_, rfl⟩
  have hfree : s.mutex = none := by cases hrun; rfl
  have hcount : s.object.queue.messagesCount = 1 := by cases hrun; rfl
  exact ⟨s, log, hrun, hcount, ((locked_queues_are_fifo (.inr rfl) hrun).1 hfree).2⟩

end IldDrivers
