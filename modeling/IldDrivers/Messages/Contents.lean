import IldDrivers.Messages.Refinement

/-!
# The contents of the blocking message queue

A run of `tp-V-04` is, as far as the array and the offsets are concerned, the list of its last
critical sections. `Does` says what one of them can do, and everything about the contents of the
queue is derived from it.

* `Accepted`: a successful write, with the queue as the write found it;
* `queued`: the successful writes not yet removed, oldest first;
* `Holds`: the array is sound, and its rows in use are those of the queued writes, as they stood
  when the writes returned;
* `queue_is_sound_and_fifo`: so it is whenever the mutex is free.
-/

namespace IldDrivers.TpV04

variable {Pid File : Type*} [DecidableEq File]

/-- What a call that need not wait does to the module and the files. -/
inductive Does (abi : Abi) (sh : Shared File) : Call File → Effect File → Prop
  /-- The head is exhausted for this file, and removed. -/
  | removes (f : File) (u : UserRead) (hcount : sh.queue.messagesCount ≠ 0)
      (hend : abi.ssize (sh.queue.strlenHead - sh.offset f) ≤ 0) :
      Does abi sh (.read f u) ⟨{ sh with queue := sh.queue.decrement.shift }, 0, []⟩
  /-- Bytes are returned; the file advances. -/
  | delivers (f : File) (u : UserRead) (n : ℤ) (hcount : sh.queue.messagesCount ≠ 0)
      (hmore : 0 < abi.ssize (sh.queue.strlenHead - sh.offset f))
      (hn : n = min (abi.ssize (sh.queue.strlenHead - sh.offset f)) u.length)
      (hcopied : n.toNat ≤ u.copied) :
      Does abi sh (.read f u)
        ⟨{ sh with offset := Function.update sh.offset f (sh.offset f + n) }, n,
          sh.queue.source u.outside (sh.offset f) n.toNat⟩
  | readFaults (f : File) (u : UserRead) (user : List UInt8)
      (hcopied : u.copied <
        (min (abi.ssize (sh.queue.strlenHead - sh.offset f)) u.length).toNat) :
      Does abi sh (.read f u) ⟨sh, -eFault, user⟩
  | tooLong (f : File) (u : UserWrite) : Does abi sh (.write f u) ⟨sh, -eInval, []⟩
  /-- The copy fails; the free row it began to fill is not given back as it was. -/
  | writeFaults (f : File) (u : UserWrite) (l : List UInt8)
      (hroom : sh.queue.messagesCount < msgNbMax) (hl : l.length < 32) :
      Does abi sh (.write f u) ⟨{ sh with queue := sh.queue.storeFree l }, -eFault, []⟩
  | accepts (f : File) (u : UserWrite) (hroom : sh.queue.messagesCount < msgNbMax)
      (hl : u.data.length < 32) :
      Does abi sh (.write f u)
        ⟨{ sh with queue := (sh.queue.storeFree u.data).increment }, u.data.length, []⟩

theorem does_call {abi : Abi} {sh : Shared File} {c : Call File}
    (h : blocked c sh.queue = false) : Does abi sh c (TpV01.call abi sh c) := by
  cases c with
  | read f u =>
    have hcount : sh.queue.messagesCount ≠ 0 := by simpa [blocked] using h
    rw [call_read abi hcount]
    simp only
    set lg := abi.ssize (sh.queue.strlenHead - sh.offset f) with hlg
    by_cases hend : lg ≤ 0
    · rw [if_pos hend]
      exact .removes f u hcount hend
    · rw [if_neg hend]
      -- the two bounds on the number of bytes, in one
      have hn : (if lg > u.length then (u.length : ℤ) else lg) = min lg u.length := by
        split_ifs <;> omega
      rw [hn]
      have hsource : (sh.queue.source u.outside (sh.offset f) (min lg u.length).toNat).length =
          (min lg u.length).toNat := Memory.load_length _ _ _
      by_cases hcopy : (copyToUser (sh.queue.source u.outside (sh.offset f)
          (min lg u.length).toNat) u.copied).2 ≠ 0
      · rw [if_pos hcopy]
        rw [copyToUser, hsource] at hcopy
        exact .readFaults f u _ (by simp only at hcopy; omega)
      · rw [if_neg hcopy, copyToUser_complete (not_not.1 hcopy)]
        rw [copyToUser, hsource] at hcopy
        exact .delivers f u _ hcount (by omega) rfl (by simp only at hcopy; omega)
  | write f u =>
    have hroom : sh.queue.messagesCount < msgNbMax := by simpa [blocked] using h
    rw [call_write abi hroom.ne]
    simp only
    by_cases hlong : (u.data.length : ℤ) ≥ msgLgMax
    · rw [if_pos hlong]
      exact .tooLong f u
    · rw [if_neg hlong]
      have hl : u.data.length < 32 := by simp only [msgLgMax] at hlong; omega
      by_cases hcopy : (sh.queue.copyIn u.data u.copied).2 ≠ 0
      · rw [if_pos hcopy]
        obtain ⟨l, hlen, hq⟩ := Queue.copyIn_eq_storeFree sh.queue u.data u.copied
        rw [hq]
        exact .writeFaults f u l hroom (hlen ▸ hl)
      · rw [if_neg hcopy, Queue.copyIn_complete (not_not.1 hcopy)]
        exact .accepts f u hroom hl

/-- A chain can be cut anywhere. -/
theorem chain_append {abi : Abi} {sh : Shared File} {xs ys : List (Section Pid File)} :
    Chain abi sh (xs ++ ys) ↔ Chain abi sh xs ∧ Chain abi (lastShared sh xs) ys := by
  induction xs generalizing sh with
  | nil => simp [Chain]
  | cons x xs ih =>
    rw [List.cons_append, Chain, Chain, ih, and_assoc, and_assoc]
    rfl

theorem Chain.does {abi : Abi} {sh : Shared File} {x : Section Pid File}
    {xs : List (Section Pid File)} (h : Chain abi sh (x :: xs)) :
    Does abi sh x.call x.effect := h.2.1 ▸ does_call h.1

/-! ### The writes in the queue -/

/-- A successful write, and the queue as it found it. -/
structure Accepted (Pid File : Type*) where
  before : Queue
  write : Section Pid File

/-- The row of the message, as it stood when the write returned. -/
def Accepted.row (a : Accepted Pid File) : List UInt8 :=
  a.write.effect.after.queue.row a.before.messagesCount

/-- What a section does to the queue of messages: a write that does not fail adds its message, a
read that decrements the count removes the head, all others leave it alone. -/
def queueOp (q : Queue) (x : Section Pid File) : FifoOp (Accepted Pid File) :=
  match x.call with
  | .write _ _ => if 0 ≤ x.effect.ret then .push ⟨q, x⟩ else .keep
  | .read _ _ =>
      if x.effect.after.queue.messagesCount < q.messagesCount then .pop else .keep

def queueOps : Queue → List (Section Pid File) → List (FifoOp (Accepted Pid File))
  | _, [] => []
  | q, x :: xs => queueOp q x :: queueOps x.effect.after.queue xs

/-- The successful writes of the sections that have not been removed, oldest first. -/
def queued (start : Queue) (xs : List (Section Pid File)) : List (Accepted Pid File) :=
  Fifo.replay [] (queueOps start xs)

omit [DecidableEq File] in
theorem queueOp_write {q : Queue} {x : Section Pid File} {f : File} {u : UserWrite}
    (hcall : x.call = .write f u) (hret : 0 ≤ x.effect.ret) : queueOp q x = .push ⟨q, x⟩ := by
  unfold queueOp
  rw [hcall]
  exact if_pos hret

omit [DecidableEq File] in
theorem queueOps_append (start : Shared File) (xs ys : List (Section Pid File)) :
    queueOps start.queue (xs ++ ys) =
      queueOps start.queue xs ++ queueOps (lastShared start xs).queue ys := by
  induction xs generalizing start with
  | nil => rfl
  | cons x xs ih =>
    rw [List.cons_append, queueOps, queueOps, ih x.effect.after]
    rfl

omit [DecidableEq File] in
theorem queued_snoc (start : Shared File) (xs : List (Section Pid File)) (x : Section Pid File) :
    queued start.queue (xs ++ [x]) =
      Fifo.apply (queued start.queue xs) (queueOp (lastShared start xs).queue x) := by
  rw [queued, queueOps_append, Fifo.replay_append]
  rfl

/-- The array is sound, and its rows in use are those of the queued writes. -/
structure Holds (q : Queue) (items : List (Accepted Pid File)) : Prop where
  sound : q.Sound
  rows : q.rows = items.map Accepted.row

/-- One critical section. -/
theorem Holds.section {abi : Abi} {sh : Shared File} {items : List (Accepted Pid File)}
    (h : Holds sh.queue items) {x : Section Pid File} (hx : Does abi sh x.call x.effect) :
    Holds x.effect.after.queue (Fifo.apply items (queueOp sh.queue x)) := by
  obtain ⟨p, c, e⟩ := x
  change Does abi sh c e at hx
  cases hx with
  | removes f u hcount hend =>
    have hnonneg := h.sound.nonneg
    have hless : sh.queue.decrement.shift.messagesCount < sh.queue.messagesCount := by
      rw [Queue.messagesCount_shift]
      simp only [Queue.decrement]
      omega
    refine ⟨h.sound.remove (by omega), ?_⟩
    simp only [queueOp, if_pos hless, Fifo.apply]
    rw [Queue.rows_remove, h.rows, List.map_tail]
  | delivers | readFaults => simpa only [queueOp, lt_irrefl, if_false, Fifo.apply] using h
  | tooLong => exact h
  | writeFaults f u l hroom hl =>
    refine ⟨h.sound.storeFree hl, ?_⟩
    rw [Queue.rows_storeFree]
    exact h.rows
  | accepts f u hroom hl =>
    refine ⟨(h.sound.storeFree hl).increment hroom, ?_⟩
    rw [queueOp_write rfl (Int.natCast_nonneg _), Fifo.apply]
    rw [Queue.rows_accept h.sound.nonneg, h.rows, List.map_append]
    rfl

omit [DecidableEq File] in
theorem holds_init : Holds Queue.init ([] : List (Accepted Pid File)) := ⟨Queue.sound_init, rfl⟩

/-- Any number of critical sections. -/
theorem Chain.holds {abi : Abi} {start : Shared File} {xs : List (Section Pid File)}
    (h : Chain abi start xs) (hstart : start.queue = Queue.init) :
    Holds (lastShared start xs).queue (queued start.queue xs) := by
  induction xs using List.reverseRecOn with
  | nil => rw [lastShared_nil, hstart]; exact holds_init
  | append_singleton xs x ih =>
    obtain ⟨hxs, hx⟩ := chain_append.1 h
    rw [lastShared_snoc, queued_snoc]
    exact (ih hxs).section hx.does

/-- A call that fails leaves the count and the rows in use alone. -/
theorem Does.of_failure {abi : Abi} {sh : Shared File} {c : Call File} {e : Effect File}
    (h : Does abi sh c e) (hret : e.ret < 0) :
    e.after.queue.messagesCount = sh.queue.messagesCount ∧ e.after.queue.rows = sh.queue.rows := by
  cases h with
  | removes => exact absurd hret (lt_irrefl 0)
  | delivers f u n hcount hmore hn => simp only at hret; omega
  | readFaults | tooLong => exact ⟨rfl, rfl⟩
  | writeFaults => exact ⟨rfl, Queue.rows_storeFree _ _⟩
  | accepts => simp only at hret; omega

/-! ### Every run -/

/-- No statement leads back to the first one after the loop. -/
theorem following_ne_body (abi : Abi) (c : Call File) (sh : Shared File) (pc : Pc File) :
    (bodyStep abi c sh pc).2.following ≠ .inl .body := by
  intro h
  cases pc with
  | body => cases c <;> simp only [bodyStep] at h <;> split_ifs at h <;> cases h
  | copyOut | copyIn => simp only [bodyStep] at h; split_ifs at h <;> cases h
  | lock | loop | unlockWait | wait | relock | decrement | shift | increment | wake | unlock
  | ret => cases h

section Run

variable [DecidableEq Pid] {abi : Abi} {offset : File → ℤ} {acts : List (Act Pid File)}
  {s : State Pid File} {log : List (Output Pid File)}

/-- A process past the loop that has done nothing yet finds the module as the last section left
it. -/
theorem shared_at_body (hrun : (system abi Pid File).exec (init Pid offset) acts = some (s, log))
    {p : Pid} {c : Call File} (hp : s.proc p = .call c .body) :
    s.shared = lastShared ⟨Queue.init, offset⟩ (sections log) := by
  obtain ⟨m, mlog, hm, h, rfl⟩ := exec_toMonitor hrun
  obtain ⟨pt, hpt, hat⟩ := h.inside hp
  cases hat with
  | body =>
    obtain ⟨-, hpath⟩ := (Monitor.linear_of_run hm).2.midst p c (.inl .body) (by rw [hpt]; rfl)
    rw [sections_ofMonitor, lastShared_asSection, ← h.object]
    rcases Relation.ReflTransGen.cases_tail hpath with hstart | ⟨x, -, l, -, hlast⟩
    · exact (congrArg Prod.fst hstart)
    · exact absurd (congrArg Prod.snd hlast).symm (following_ne_body abi c x.1 l)

theorem holds_of_run (hrun : (system abi Pid File).exec (init Pid offset) acts = some (s, log)) :
    Holds (lastShared ⟨Queue.init, offset⟩ (sections log)).queue
      (queued Queue.init (sections log)) :=
  (chain_of_run hrun).holds rfl

/-- **The representation invariant of the message queue, and its order.** Whenever the mutex is free,
the count is in bounds, the last byte of every row is NUL, and the rows in use are, in order and
byte for byte, those of the successful writes not yet removed, as they stood when these returned.
A call that fails leaves the count and these rows as they were. And `strlen(messages_array[0])`,
whenever it is executed, ends inside row 0. -/
theorem queue_is_sound_and_fifo
    (hrun : (system abi Pid File).exec (init Pid offset) acts = some (s, log)) :
    (s.mutex = none → s.shared.queue.Sound ∧
      s.shared.queue.messagesCount = (queued Queue.init (sections log)).length ∧
      s.shared.queue.rows = (queued Queue.init (sections log)).map Accepted.row) ∧
    (∀ xs x ys, sections log = xs ++ x :: ys → x.effect.ret < 0 →
      let before := lastShared ⟨Queue.init, offset⟩ xs
      x.effect.after.queue.messagesCount = before.queue.messagesCount ∧
      x.effect.after.queue.rows = before.queue.rows) ∧
    ∀ p c, s.proc p = .call c .body →
      s.shared.queue.strlenHead = (cstring (s.shared.queue.row 0)).length ∧
      s.shared.queue.strlenHead < 32 := by
  have h := holds_of_run hrun
  refine ⟨fun hfree => ?_, fun xs x ys hlog hret => ?_, fun p c hp => ?_⟩
  · rw [shared_of_run hrun hfree]
    refine ⟨h.sound, ?_, h.rows⟩
    have hlen := congrArg List.length h.rows
    rw [Queue.rows_length, List.length_map] at hlen
    have hnonneg := h.sound.nonneg
    omega
  · have hchain := chain_of_run hrun
    rw [hlog, chain_append] at hchain
    exact hchain.2.does.of_failure hret
  · rw [shared_at_body hrun hp]
    have hle := h.sound.strlenHead_le
    exact ⟨h.sound.strlenHead_eq, by omega⟩

end Run

/-- One write. -/
theorem queue_is_sound_and_fifo_write :
    ∃ (s : State ℕ ℕ) (log : List (Output ℕ ℕ)),
      (system .lp64 ℕ ℕ).exec (init ℕ fun _ => 0) (Act.solo 0 (.write 0 ⟨[104, 105], 2⟩) 8) =
        some (s, log) ∧
      s.shared.queue.messagesCount = 1 ∧
      s.shared.queue.rows = (queued Queue.init (sections log)).map Accepted.row := by
  obtain ⟨⟨s, log⟩, hrun⟩ : ∃ r, (system .lp64 ℕ ℕ).exec (init ℕ fun _ => 0)
    (Act.solo 0 (.write 0 ⟨[104, 105], 2⟩) 8) = some r := ⟨_, rfl⟩
  have hfree : s.mutex = none := by cases hrun; rfl
  have hcount : s.shared.queue.messagesCount = 1 := by cases hrun; rfl
  exact ⟨s, log, hrun, hcount, ((queue_is_sound_and_fifo hrun).1 hfree).2.2⟩

end IldDrivers.TpV04
