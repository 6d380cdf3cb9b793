import IldDrivers.Messages.Contents

/-!
# What is left of a message in its row

`messages_write` copies the bytes of a message into a row and stores no terminator after them, so
the message ends where the row happened to hold a NUL before. `Accepted.FindsNul` says that it did
right behind the message. `intact_iff_findsNul` shows that this is exactly when the C string of the
row is the message, for every message of every run; `terminator_is_left_over` is a run in which it
is not.
-/

namespace IldDrivers.TpV04

variable {Pid File : Type*}

/-- The bytes written. -/
def Accepted.data (a : Accepted Pid File) : List UInt8 :=
  match a.write.call with
  | .read _ _ => []
  | .write _ u => u.data

/-- The byte that follows the message in its row was NUL before the message was copied. -/
def Accepted.FindsNul (a : Accepted Pid File) : Prop :=
  a.before.messagesArray (rowAddr a.before.messagesCount + a.data.length) = 0

/-- The message fits, and its row is the message followed by what was there before. -/
structure Accepted.Stored (a : Accepted Pid File) : Prop where
  length_lt : a.data.length < 32
  row_eq : a.row = a.data ++ (a.before.row a.before.messagesCount).drop a.data.length

/-- The C string of every queued message is the message, if this is a C string at all. -/
def Intact (q : Queue) (items : List (Accepted Pid File)) : Prop :=
  ∀ (i : ℕ) (a : Accepted Pid File), items[i]? = some a → NulFree a.data → a.data ≠ [] →
    cstring (q.row i) = a.data

/-- The successful writes among the sections, removed or not. -/
def accepted (start : Queue) (xs : List (Section Pid File)) : List (Accepted Pid File) :=
  Fifo.pushed (queueOps start xs)

theorem mem_accepted_of_queued {start : Queue} {xs : List (Section Pid File)}
    {a : Accepted Pid File} (h : a ∈ queued start xs) : a ∈ accepted start xs :=
  (Fifo.mem_replay h).resolve_left List.not_mem_nil

theorem accepted_snoc (start : Shared File) (xs : List (Section Pid File))
    (x : Section Pid File) :
    accepted start.queue (xs ++ [x]) =
      accepted start.queue xs ++ Fifo.added (queueOp (lastShared start xs).queue x) := by
  rw [accepted, queueOps_append, Fifo.pushed, List.flatMap_append]
  exact congrArg _ (List.append_nil _)

/-- Where the message ends in its row. -/
theorem Accepted.Stored.cstring_row_eq_iff {a : Accepted Pid File} (h : a.Stored)
    (hfree : NulFree a.data) : cstring a.row = a.data ↔ a.FindsNul := by
  set old := a.before.row a.before.messagesCount with hold
  have hlen : a.data.length < old.length := by rw [Queue.row_length]; exact h.length_lt
  have hbyte : old[a.data.length] =
      a.before.messagesArray (rowAddr a.before.messagesCount + a.data.length) := by
    have hget := Queue.row_getElem? a.before a.before.messagesCount h.length_lt
    rw [← hold, List.getElem?_eq_getElem hlen] at hget
    exact Option.some.inj hget
  rw [h.row_eq, List.drop_eq_getElem_cons hlen, cstring_append_cons_eq_iff hfree, hbyte]
  rfl

/-- The rows hold the messages exactly as far as the writes found a NUL. -/
theorem Holds.intact_iff {q : Queue} {items : List (Accepted Pid File)} (h : Holds q items)
    (hstored : ∀ a ∈ items, a.Stored) :
    Intact q items ↔ ∀ a ∈ items, NulFree a.data → a.data ≠ [] → a.FindsNul := by
  have hrow : ∀ (i : ℕ) (a : Accepted Pid File), items[i]? = some a → q.row i = a.row := by
    intro i a ha
    have hlen : i < q.messagesCount.toNat := by
      rw [← Queue.rows_length, h.rows, List.length_map]
      exact (List.getElem?_eq_some_iff.1 ha).1
    have hget := Queue.rows_getElem? hlen
    rw [h.rows, List.getElem?_map, ha] at hget
    exact (Option.some.inj hget).symm
  constructor
  · intro hint a ha hfree hne
    obtain ⟨i, hi⟩ := List.getElem?_of_mem ha
    rw [← (hstored a ha).cstring_row_eq_iff hfree, ← hrow i a hi]
    exact hint i a hi hfree hne
  · intro hnul i a hi hfree hne
    have ha : a ∈ items := List.mem_of_getElem? hi
    rw [hrow i a hi, (hstored a ha).cstring_row_eq_iff hfree]
    exact hnul a ha hfree hne

variable [DecidableEq File]

theorem stored_of_does {abi : Abi} {sh : Shared File} {x : Section Pid File}
    (h : Does abi sh x.call x.effect) {a : Accepted Pid File}
    (ha : a ∈ Fifo.added (queueOp sh.queue x)) : a.Stored := by
  obtain ⟨p, c, e⟩ := x
  change Does abi sh c e at h
  cases h with
  | removes | delivers | readFaults =>
    simp only [queueOp] at ha
    split_ifs at ha <;> exact absurd ha List.not_mem_nil
  | tooLong | writeFaults => exact absurd ha List.not_mem_nil
  | accepts f u hroom hl =>
    rw [queueOp_write rfl (Int.natCast_nonneg _)] at ha
    cases List.mem_singleton.1 ha
    exact ⟨hl, Queue.row_storeFree_self sh.queue hl.le⟩

theorem Chain.stored {abi : Abi} {start : Shared File} {xs : List (Section Pid File)}
    (h : Chain abi start xs) {a : Accepted Pid File} (ha : a ∈ accepted start.queue xs) :
    a.Stored := by
  induction xs using List.reverseRecOn with
  | nil => exact absurd ha List.not_mem_nil
  | append_singleton xs x ih =>
    obtain ⟨hxs, hx⟩ := chain_append.1 h
    rw [accepted_snoc, List.mem_append] at ha
    exact ha.elim (ih hxs) (stored_of_does hx.does)

section Run

variable [DecidableEq Pid] {abi : Abi} {offset : File → ℤ} {acts : List (Act Pid File)}
  {s : State Pid File} {log : List (Output Pid File)}

/-- **When the messages are intact.** In every state of every run in which the mutex is free, the
queued messages are intact exactly when each of them, at its write, found a NUL right behind it in
its row. So in a run all of whose successful writes do, the messages are intact in every such
state. -/
theorem intact_iff_findsNul
    (hrun : (system abi Pid File).exec (init Pid offset) acts = some (s, log)) :
    (s.mutex = none → (Intact s.shared.queue (queued Queue.init (sections log)) ↔
      ∀ a ∈ queued Queue.init (sections log), NulFree a.data → a.data ≠ [] → a.FindsNul)) ∧
    ((∀ a ∈ accepted Queue.init (sections log), NulFree a.data → a.data ≠ [] → a.FindsNul) →
      s.mutex = none → Intact s.shared.queue (queued Queue.init (sections log))) := by
  have hstored : ∀ a ∈ queued Queue.init (sections log), a.Stored := fun a ha =>
    (chain_of_run hrun).stored (mem_accepted_of_queued ha)
  have hiff : s.mutex = none → (Intact s.shared.queue (queued Queue.init (sections log)) ↔
      ∀ a ∈ queued Queue.init (sections log), NulFree a.data → a.data ≠ [] → a.FindsNul) := by
    intro hfree
    rw [shared_of_run hrun hfree]
    exact (holds_of_run hrun).intact_iff hstored
  exact ⟨hiff, fun hall hfree => (hiff hfree).2 fun a ha => hall a (mem_accepted_of_queued ha)⟩

end Run

/-- The first message of a run finds a NUL behind it. -/
theorem intact_iff_findsNul_first :
    ∃ (s : State ℕ ℕ) (log : List (Output ℕ ℕ)),
      (system .lp64 ℕ ℕ).exec (init ℕ fun _ => 0) (Act.solo 0 (.write 0 ⟨[104, 105], 2⟩) 8) =
        some (s, log) ∧
      s.shared.queue.messagesCount = 1 ∧
      Intact s.shared.queue (queued Queue.init (sections log)) := by
  obtain ⟨⟨s, log⟩, hrun⟩ : ∃ r, (system .lp64 ℕ ℕ).exec (init ℕ fun _ => 0)
    (Act.solo 0 (.write 0 ⟨[104, 105], 2⟩) 8) = some r := ⟨_, rfl⟩
  have hfree : s.mutex = none := by cases hrun; rfl
  have hcount : s.shared.queue.messagesCount = 1 := by cases hrun; rfl
  refine ⟨s, log, hrun, hcount, (intact_iff_findsNul hrun).2 ?_ hfree⟩
  intro a ha _ _
  cases hrun
  cases List.mem_singleton.1 ha
  rfl

/-- Process 0 writes "hello", reads it, removes it, and writes "ab". -/
def helloAb : List (Act ℕ ℕ) :=
  Act.solo 0 (.write 0 ⟨[104, 101, 108, 108, 111], 5⟩) 8 ++
  Act.solo 0 (.read 0 ⟨8, 8, fun _ => 0⟩) 6 ++ Act.solo 0 (.read 0 ⟨8, 8, fun _ => 0⟩) 8 ++
  Act.solo 0 (.write 0 ⟨[97, 98], 2⟩) 8

/-- The message "ab" is queued as "abllo". -/
theorem terminator_is_left_over :
    ∃ (s : State ℕ ℕ) (log : List (Output ℕ ℕ)),
      (system .lp64 ℕ ℕ).exec (init ℕ fun _ => 0) helloAb = some (s, log) ∧ s.mutex = none ∧
      ¬ Intact s.shared.queue (queued Queue.init (sections log)) := by
  obtain ⟨⟨s, log⟩, hrun, hval⟩ := Option.map_eq_some_iff.1
    (show ((system .lp64 ℕ ℕ).exec (init ℕ fun _ => 0) helloAb).map
        (fun r => (r.1.mutex, (queued Queue.init (sections r.2))[0]?.map Accepted.data,
          cstring (r.1.shared.queue.row 0))) =
      some (none, some [97, 98], [97, 98, 108, 108, 111]) by decide +kernel)
  simp only [Prod.mk.injEq, Option.map_eq_some_iff] at hval
  obtain ⟨hfree, ⟨a, ha, hdata⟩, hrow⟩ := hval
  refine ⟨s, log, hrun, hfree, fun hint => ?_⟩
  have h := hint 0 a ha (by rw [hdata]; decide) (by rw [hdata]; decide)
  rw [hdata, Nat.cast_zero, hrow] at h
  exact absurd h (by decide)

end IldDrivers.TpV04
