import IldDrivers.Kernel
import IldDrivers.Lib.Decimal
import IldDrivers.Lib.History
import IldDrivers.Lib.Transition
import IldDrivers.Lib.WaitQueue
import Mathlib.Logic.Function.Basic

/-!
# The times of interrupts (`example-V-08` to `example-V-10`)

At each interrupt `example_handler` stores the time at the end of an array, and `example_read`
takes the oldest time out of it, sleeping while there is none. A spinlock protects the array: what
stands between `spin_lock` and `spin_unlock` is one step here. The handler wakes the readers after
it has released the lock, and `wait_event_interruptible` tests `array_end` without it.

* `ExampleData.record`, `ExampleData.removeFirst`: the two critical sections;
* `step`: any number of executions of both functions, with signals and the clock;
* `Queued`: what has been recorded is what has been removed, followed by the array;
* `NoLostWake`: a reader sleeps next to a nonempty array only while a handler is about to wake it;
* `timestamps_fifo`: both, in every run.
-/

namespace IldDrivers.Timestamps

def exampleArraySize : ℤ := 1024

inductive Version
  | v08
  | v09
  | v10
  deriving DecidableEq

/-- `struct example_data` of `example-V-10`, the globals of the others. -/
structure ExampleData where
  array : Memory ℕ
  arrayEnd : ℤ

namespace ExampleData

/-- `array[0]` to `array[array_end - 1]`. -/
def pending (d : ExampleData) : List ℕ := d.array.load 0 d.arrayEnd.toNat

/-- There is room, `example_handler` stores the time. -/
def record (d : ExampleData) (jiffies : ℕ) : ExampleData :=
  ⟨d.array.store d.arrayEnd [jiffies], d.arrayEnd + 1⟩

/-- `array_end--` and the `memmove` of `example_read`. -/
def removeFirst (d : ExampleData) : ExampleData :=
  let arrayEnd := d.arrayEnd - 1
  if arrayEnd > 0 then ⟨d.array.move 0 1 arrayEnd.toNat, arrayEnd⟩ else ⟨d.array, arrayEnd⟩

end ExampleData

/-! ### The text returned -/

/-- A `read`: `O_NONBLOCK`, the length, and how many bytes can be copied. -/
structure ReadArgs where
  nonblock : Bool
  length : ℕ
  copied : ℕ
  deriving DecidableEq

/-- `snprintf(k_buffer, 80, "%ld\n", value)`. -/
def kBuffer (abi : Abi) (value : ℕ) : List UInt8 := (decimal (abi.ssize value) ++ [10]).take 79

/-- The value `example_read` returns after `snprintf`, and the bytes it puts in the buffer. -/
def deliver (abi : Abi) (a : ReadArgs) (value : ℕ) : ℤ × List UInt8 :=
  let text := kBuffer abi value
  if a.length < text.length + 1 then (-eNoMem, [])
  else
    let c := copyToUser (text ++ [0]) a.copied
    if c.2 ≠ 0 then (-eFault, c.1) else (text.length + 1, c.1)

/-! ### The machine -/

/-- The statement a call of `example_read` is about to execute. -/
inductive ReadPc
  /-- `spin_lock_irqsave`, up to the next `spin_unlock_irqrestore`. -/
  | lock
  /-- `filp->f_flags & O_NONBLOCK`. -/
  | testNonblock
  /-- `wait_event_interruptible`. -/
  | wait (w : WaitPoint)
  /-- `snprintf` and what follows. -/
  | format (value : ℕ)
  deriving DecidableEq

/-- An execution of one of the two functions, or none. -/
inductive Proc
  | outside
  /-- `example_handler`, before its critical section. -/
  | handlerLock
  /-- `example_handler`, about to execute `wake_up_interruptible`. -/
  | handlerWake
  | read (a : ReadArgs) (pc : ReadPc)
  deriving DecidableEq

structure State (Pid : Type*) where
  data : ExampleData
  jiffies : ℕ
  proc : Pid → Proc

inductive Act (Pid : Type*)
  | tick
  | interrupt (p : Pid)
  | read (p : Pid) (a : ReadArgs)
  | run (p : Pid)
  | signal (p : Pid)

inductive Event (Pid : Type*)
  | recorded (jiffies : ℕ)
  | dropped (jiffies : ℕ)
  | removed (p : Pid) (value : ℕ)
  | returned (p : Pid) (ret : ℤ) (user : List UInt8)
  deriving DecidableEq

/-- `wake_up_interruptible(&array_wq)`. -/
def wakeUp {Pid : Type*} (proc : Pid → Proc) : Pid → Proc := fun p =>
  match proc p with
  | .read a (.wait w) => .read a (.wait w.wake)
  | x => x

variable {Pid : Type*} [DecidableEq Pid]

/-- Process `p` is now at `x`. -/
def State.setProc (s : State Pid) (p : Pid) (x : Proc) : State Pid :=
  { s with proc := Function.update s.proc p x }

/-- The next statement of a call of `example_read`. -/
def readStep (v : Version) (abi : Abi) (s : State Pid) (p : Pid) (a : ReadArgs) :
    ReadPc → Option (State Pid × List (Event Pid))
  | .lock =>
      if s.data.arrayEnd = 0 then some (s.setProc p (.read a .testNonblock), [])
      else
        some ({ s with data := s.data.removeFirst }.setProc p (.read a (.format (s.data.array 0))),
          [.removed p (s.data.array 0)])
  | .testNonblock =>
      -- `example-V-08` does not make this test
      if v ≠ .v08 ∧ a.nonblock then some (s.setProc p .outside, [.returned p (-eAgain) []])
      else some (s.setProc p (.read a (.wait .test)), [])
  | .wait w =>
      match w.advance (s.data.arrayEnd != 0) with
      | some (.goto w') => some (s.setProc p (.read a (.wait w')), [])
      | some .finish => some (s.setProc p (.read a .lock), [])
      | _ => none
  | .format value =>
      let r := deliver abi a value
      some (s.setProc p .outside, [.returned p r.1 r.2])

/-- A signal for a process that waits in `example_read`. -/
def signalStep (s : State Pid) (p : Pid) (a : ReadArgs) (w : WaitPoint) :
    Option (State Pid × List (Event Pid)) :=
  match w.interrupt (s.data.arrayEnd != 0) with
  | some (.goto w') => some (s.setProc p (.read a (.wait w')), [])
  | some .interrupted => some (s.setProc p .outside, [.returned p (-eRestartSys) []])
  | _ => none

def step (v : Version) (abi : Abi) (s : State Pid) :
    Act Pid → Option (State Pid × List (Event Pid))
  | .tick => some ({ s with jiffies := (s.jiffies + 1) % 2 ^ abi.longBits }, [])
  | .interrupt p =>
      match s.proc p with
      | .outside => some (s.setProc p .handlerLock, [])
      | _ => none
  | .read p a =>
      match s.proc p with
      | .outside => some (s.setProc p (.read a .lock), [])
      | _ => none
  | .run p =>
      match s.proc p with
      | .outside => none
      | .handlerLock =>
          if s.data.arrayEnd < exampleArraySize then
            some ({ s with data := s.data.record s.jiffies }.setProc p .handlerWake,
              [.recorded s.jiffies])
          else some (s.setProc p .handlerWake, [.dropped s.jiffies])
      | .handlerWake => some ({ s with proc := wakeUp s.proc }.setProc p .outside, [])
      | .read a pc => readStep v abi s p a pc
  | .signal p =>
      match s.proc p with
      | .read a (.wait w) => signalStep s p a w
      | _ => none

def system (v : Version) (abi : Abi) (Pid : Type*) [DecidableEq Pid] :
    System (State Pid) (Act Pid) (Event Pid) := ⟨step v abi⟩

/-- An empty queue; `kmalloc` leaves any bytes in the array. -/
def init (Pid : Type*) (array : Memory ℕ) (jiffies : ℕ) : State Pid :=
  ⟨⟨array, 0⟩, jiffies, fun _ => .outside⟩

/-! ### The critical sections -/

namespace ExampleData

theorem pending_length {d : ExampleData} (h : 0 ≤ d.arrayEnd) :
    (d.pending.length : ℤ) = d.arrayEnd := by
  unfold pending
  rw [Memory.load_length, Int.toNat_of_nonneg h]

/-- The time stored is the last of the queue. -/
theorem pending_record {d : ExampleData} (h : 0 ≤ d.arrayEnd) (jiffies : ℕ) :
    (d.record jiffies).pending = d.pending ++ [jiffies] := by
  have hend : (d.arrayEnd + 1).toNat = d.arrayEnd.toNat + 1 := by omega
  have hlast : (d.array.store d.arrayEnd [jiffies]).load d.arrayEnd 1 = [jiffies] :=
    Memory.load_store d.array d.arrayEnd [jiffies]
  unfold pending record
  simp only
  rw [hend, Memory.load_add, Memory.load_store_of_disjoint (Or.inl (by omega)), zero_add,
    Int.toNat_of_nonneg h, hlast]

/-- The time taken out is the first of the queue, and the others move up. -/
theorem pending_removeFirst {d : ExampleData} (h : 0 < d.arrayEnd) :
    d.pending = d.array 0 :: d.removeFirst.pending := by
  have hfirst : d.pending = d.array 0 :: d.array.load 1 (d.arrayEnd - 1).toNat := by
    have hend : d.arrayEnd.toNat = 1 + (d.arrayEnd - 1).toNat := by omega
    unfold pending
    rw [hend, Memory.load_add]
    rfl
  rw [hfirst]
  unfold removeFirst pending
  simp only
  split_ifs with hmore
  · simp only
    rw [Memory.load_move (by omega) (by omega)]
    rfl
  · rw [show (d.arrayEnd - 1).toNat = 0 by omega]
    rfl

theorem arrayEnd_removeFirst (d : ExampleData) : d.removeFirst.arrayEnd = d.arrayEnd - 1 := by
  unfold removeFirst
  simp only
  split_ifs <;> rfl

end ExampleData

/-! ### What is queued -/

/-- The times that `example_handler` has stored, in order. -/
def recorded (log : List (Event Pid)) : List ℕ :=
  log.filterMap fun e => match e with
    | .recorded j => some j
    | _ => none

/-- The times that the readers have taken out, in order. -/
def removed (log : List (Event Pid)) : List ℕ :=
  log.filterMap fun e => match e with
    | .removed _ v => some v
    | _ => none

/-- A time is dropped only when the array is full of times that nobody has taken out, and the time
taken out is the oldest that has been recorded and not taken out. -/
def InOrder (before : List (Event Pid)) : Event Pid → Prop
  | .dropped _ => ((recorded before).length : ℤ) = (removed before).length + exampleArraySize
  | .removed _ v => (recorded before)[(removed before).length]? = some v
  | _ => True

/-- The invariant of the array. -/
structure Queued (d : ExampleData) (log : List (Event Pid)) : Prop where
  nonneg : 0 ≤ d.arrayEnd
  le_size : d.arrayEnd ≤ exampleArraySize
  removed_append : removed log ++ d.pending = recorded log
  inOrder : History.EachAfter InOrder log

omit [DecidableEq Pid] in
theorem queued_init (array : Memory ℕ) : Queued ⟨array, 0⟩ ([] : List (Event Pid)) :=
  ⟨le_refl _, by simp only; decide, rfl, History.eachAfter_nil⟩

omit [DecidableEq Pid] in
theorem recorded_append (log log' : List (Event Pid)) :
    recorded (log ++ log') = recorded log ++ recorded log' := List.filterMap_append

omit [DecidableEq Pid] in
theorem removed_append (log log' : List (Event Pid)) :
    removed (log ++ log') = removed log ++ removed log' := List.filterMap_append

omit [DecidableEq Pid] in
/-- As many times are pending as have been recorded and not taken out. -/
theorem Queued.length_recorded {d : ExampleData} {log : List (Event Pid)} (h : Queued d log) :
    ((recorded log).length : ℤ) = (removed log).length + d.arrayEnd := by
  have hpending := ExampleData.pending_length h.nonneg
  rw [← h.removed_append, List.length_append, Nat.cast_add, hpending]

omit [DecidableEq Pid] in
/-- An event that leaves the array alone. -/
theorem Queued.silent {d : ExampleData} {log : List (Event Pid)} (h : Queued d log)
    {e : Event Pid} (hrecorded : recorded [e] = []) (hremoved : removed [e] = [])
    (he : InOrder log e) : Queued d (log ++ [e]) where
  nonneg := h.nonneg
  le_size := h.le_size
  removed_append := by
    rw [Timestamps.removed_append, recorded_append, hrecorded, hremoved, List.append_nil,
      List.append_nil, h.removed_append]
  inOrder := History.eachAfter_snoc.2 ⟨h.inOrder, he⟩

omit [DecidableEq Pid] in
theorem Queued.record {d : ExampleData} {log : List (Event Pid)} (h : Queued d log)
    (hroom : d.arrayEnd < exampleArraySize) (jiffies : ℕ) :
    Queued (d.record jiffies) (log ++ [.recorded jiffies]) where
  nonneg := by
    have hnonneg := h.nonneg
    simp only [ExampleData.record]
    omega
  le_size := by
    simp only [ExampleData.record]
    omega
  removed_append := by
    rw [ExampleData.pending_record h.nonneg, Timestamps.removed_append, recorded_append,
      ← h.removed_append]
    simp [removed, recorded]
  inOrder := History.eachAfter_snoc.2 ⟨h.inOrder, trivial⟩

omit [DecidableEq Pid] in
theorem Queued.drop {d : ExampleData} {log : List (Event Pid)} (h : Queued d log)
    (hfull : ¬ d.arrayEnd < exampleArraySize) (jiffies : ℕ) :
    Queued d (log ++ [.dropped jiffies]) := by
  have hlen := h.length_recorded
  have hle := h.le_size
  refine h.silent rfl rfl ?_
  simp only [InOrder]
  omega

omit [DecidableEq Pid] in
theorem Queued.removeFirst {d : ExampleData} {log : List (Event Pid)} (h : Queued d log)
    (hsome : d.arrayEnd ≠ 0) (p : Pid) :
    Queued d.removeFirst (log ++ [.removed p (d.array 0)]) := by
  have hnonneg := h.nonneg
  have hle := h.le_size
  have hpending := ExampleData.pending_removeFirst (d := d) (by omega)
  have hall : removed log ++ d.array 0 :: d.removeFirst.pending = recorded log := by
    rw [← hpending, h.removed_append]
  refine ⟨?_, ?_, ?_, History.eachAfter_snoc.2 ⟨h.inOrder, ?_⟩⟩
  · rw [ExampleData.arrayEnd_removeFirst]
    omega
  · rw [ExampleData.arrayEnd_removeFirst]
    omega
  · rw [Timestamps.removed_append, recorded_append, ← hall]
    simp [removed, recorded]
  · simp only [InOrder]
    rw [← hall, List.getElem?_append_right le_rfl, Nat.sub_self, List.getElem?_cons_zero]

/-! ### Who sleeps -/

/-- Asleep in `example_read`, or bound to sleep without another test. -/
def Proc.Parked : Proc → Prop
  | .read _ (.wait w) => w.Parked
  | _ => False

/-- Next to an array that is not empty a reader is parked only while a handler is about to wake
it. -/
def NoLostWake (s : State Pid) : Prop :=
  s.data.arrayEnd ≠ 0 → (∀ p, s.proc p ≠ .handlerWake) → ∀ p, ¬ (s.proc p).Parked

omit [DecidableEq Pid] in
theorem noLostWake_init (array : Memory ℕ) (jiffies : ℕ) :
    NoLostWake (init Pid array jiffies) := fun _ _ _ h => h

/-- A step of a process that is not about to wake the readers, and after which the process is not
parked unless the array is empty or a handler is about to wake it. -/
theorem NoLostWake.setProc {s : State Pid} (h : NoLostWake s) {p : Pid} {x : Proc}
    {d : ExampleData} (hp : s.proc p ≠ .handlerWake)
    (hx : d.arrayEnd ≠ 0 → (∀ q, s.proc q ≠ .handlerWake) → ¬ x.Parked)
    (hd : d.arrayEnd ≠ 0 → x ≠ .handlerWake → s.data.arrayEnd ≠ 0) :
    NoLostWake ({ s with data := d }.setProc p x) := by
  intro hne hnone q
  have hxwake : x ≠ .handlerWake := by simpa [State.setProc] using hnone p
  have hnone' : ∀ r, s.proc r ≠ .handlerWake := fun r => by
    by_cases hr : r = p
    · rwa [hr]
    · simpa [State.setProc, Function.update_of_ne hr] using hnone r
  by_cases hq : q = p
  · subst hq
    simpa [State.setProc] using hx hne hnone'
  · simpa [State.setProc, Function.update_of_ne hq] using h (hd hne hxwake) hnone' q

/-- The wake-up leaves no reader parked. -/
theorem noLostWake_wakeUp (s : State Pid) (p : Pid) :
    NoLostWake ({ s with proc := wakeUp s.proc }.setProc p .outside) := by
  intro _ _ q
  by_cases hq : q = p
  · subst hq
    simp [State.setProc, Proc.Parked]
  · simp only [State.setProc, Function.update_of_ne hq, wakeUp]
    cases hproc : s.proc q with
    | read a pc =>
      cases pc with
      | wait w => exact WaitPoint.wake_not_parked w
      | lock | testNonblock | format => exact id
    | outside | handlerLock | handlerWake => exact id

/-! ### Every step -/

/-- The invariant of a run. -/
structure Inv (s : State Pid) (log : List (Event Pid)) : Prop where
  queued : Queued s.data log
  noLostWake : NoLostWake s

/-- A step of one process that leaves the array alone. -/
theorem Inv.setProc {s : State Pid} {log : List (Event Pid)} (h : Inv s log) {p : Pid} {x : Proc}
    (hp : s.proc p ≠ .handlerWake)
    (hx : s.data.arrayEnd ≠ 0 → (∀ q, s.proc q ≠ .handlerWake) → ¬ x.Parked) :
    Inv (s.setProc p x) (log ++ []) :=
  ⟨(List.append_nil log).symm ▸ h.queued, h.noLostWake.setProc hp hx fun hne _ => hne⟩

/-- The same with the value returned. -/
theorem Inv.leave {s : State Pid} {log : List (Event Pid)} (h : Inv s log) {p : Pid}
    (hp : s.proc p ≠ .handlerWake) (ret : ℤ) (user : List UInt8) :
    Inv (s.setProc p .outside) (log ++ [.returned p ret user]) :=
  ⟨h.queued.silent rfl rfl trivial, h.noLostWake.setProc hp (fun _ _ => id) fun hne _ => hne⟩

theorem inv_readStep {v : Version} {abi : Abi} {s s' : State Pid} {log out : List (Event Pid)}
    {p : Pid} {a : ReadArgs} {pc : ReadPc} (h : Inv s log) (hp : s.proc p = .read a pc)
    (hstep : readStep v abi s p a pc = some (s', out)) : Inv s' (log ++ out) := by
  have hwake : s.proc p ≠ .handlerWake := by simp [hp]
  cases pc with
  | lock =>
    simp only [readStep] at hstep
    split_ifs at hstep with hempty
    · cases hstep
      exact h.setProc hwake fun _ _ => id
    · cases hstep
      exact ⟨h.queued.removeFirst hempty p,
        h.noLostWake.setProc hwake (fun _ _ => id) fun _ _ => hempty⟩
  | testNonblock =>
    simp only [readStep] at hstep
    split_ifs at hstep
    · cases hstep
      exact h.leave hwake _ _
    · cases hstep
      exact h.setProc hwake fun _ _ hparked => by
        simp [Proc.Parked, WaitPoint.Parked] at hparked
  | wait w =>
    simp only [readStep] at hstep
    split at hstep
    · rename_i w' hadvance
      cases hstep
      refine h.setProc hwake fun hne hnone hparked => ?_
      -- it was bound to sleep already, or its test has failed
      rcases WaitPoint.advance_parked hadvance hparked with hw | hcond
      · exact h.noLostWake hne hnone p (by rw [hp]; exact hw)
      · simp [hne] at hcond
    · cases hstep
      exact h.setProc hwake fun _ _ => id
    · cases hstep
  | format value =>
    cases hstep
    exact h.leave hwake _ _

theorem inv_signalStep {s s' : State Pid} {log out : List (Event Pid)} {p : Pid} {a : ReadArgs}
    {w : WaitPoint} (h : Inv s log) (hp : s.proc p = .read a (.wait w))
    (hstep : signalStep s p a w = some (s', out)) : Inv s' (log ++ out) := by
  have hwake : s.proc p ≠ .handlerWake := by simp [hp]
  simp only [signalStep] at hstep
  split at hstep
  · rename_i w' hinterrupt
    cases hstep
    exact h.setProc hwake fun _ _ => WaitPoint.interrupt_not_parked hinterrupt
  · cases hstep
    exact h.leave hwake _ _
  · cases hstep

theorem inv_step {v : Version} {abi : Abi} {s s' : State Pid} {log out : List (Event Pid)}
    {a : Act Pid} (h : Inv s log) (hstep : step v abi s a = some (s', out)) :
    Inv s' (log ++ out) := by
  cases a with
  | tick =>
    cases hstep
    exact ⟨(List.append_nil log).symm ▸ h.queued, h.noLostWake⟩
  | interrupt p =>
    simp only [step] at hstep
    split at hstep
    · rename_i hp
      cases hstep
      exact h.setProc (by simp [hp]) fun _ _ => id
    · cases hstep
  | read p a =>
    simp only [step] at hstep
    split at hstep
    · rename_i hp
      cases hstep
      exact h.setProc (by simp [hp]) fun _ _ => id
    · cases hstep
  | run p =>
    simp only [step] at hstep
    split at hstep
    · cases hstep
    · rename_i hp
      split_ifs at hstep with hroom
      · cases hstep
        exact ⟨h.queued.record hroom _, h.noLostWake.setProc (by simp [hp]) (fun _ _ => id)
          fun _ hx => absurd rfl hx⟩
      · cases hstep
        exact ⟨h.queued.drop hroom _, h.noLostWake.setProc (by simp [hp]) (fun _ _ => id)
          fun _ hx => absurd rfl hx⟩
    · cases hstep
      exact ⟨(List.append_nil log).symm ▸ h.queued, noLostWake_wakeUp s p⟩
    · rename_i hp
      exact inv_readStep h hp hstep
  | signal p =>
    simp only [step] at hstep
    split at hstep
    · rename_i hp
      exact inv_signalStep h hp hstep
    · cases hstep

theorem inv_of_run {v : Version} {abi : Abi} {array : Memory ℕ} {jiffies : ℕ}
    {acts : List (Act Pid)} {s : State Pid} {log : List (Event Pid)}
    (hrun : (system v abi Pid).exec (init Pid array jiffies) acts = some (s, log)) : Inv s log :=
  System.exec_induction (fun _ _ _ _ _ => inv_step)
    ⟨queued_init array, noLostWake_init array jiffies⟩ hrun

/-- `example_handler` is running. -/
def HandlerRunning (s : State Pid) : Prop :=
  ∃ p, s.proc p = .handlerLock ∨ s.proc p = .handlerWake

/-- Process `p` is asleep in `example_read`. -/
def Asleep (s : State Pid) (p : Pid) : Prop := ∃ a, s.proc p = .read a (.wait .asleep)

/-- **The times of the interrupts, first in, first out, and no reader left asleep.** In every run,
`array_end` is in bounds; the times removed, followed by those in the array, are the times
recorded; a time is dropped only when `EXAMPLE_ARRAY_SIZE` are pending, and a time removed is the
oldest of those pending; and when no handler is running, no reader is asleep next to an array that
is not empty. -/
theorem timestamps_fifo {v : Version} {abi : Abi} {array : Memory ℕ} {jiffies : ℕ}
    {acts : List (Act Pid)} {s : State Pid} {log : List (Event Pid)}
    (hrun : (system v abi Pid).exec (init Pid array jiffies) acts = some (s, log)) :
    0 ≤ s.data.arrayEnd ∧ s.data.arrayEnd ≤ exampleArraySize ∧
    removed log ++ s.data.pending = recorded log ∧
    (∀ before j after, log = before ++ .dropped j :: after →
      ((recorded before).length : ℤ) = (removed before).length + exampleArraySize) ∧
    (∀ before p value after, log = before ++ .removed p value :: after →
      (recorded before)[(removed before).length]? = some value) ∧
    (¬ HandlerRunning s → 0 < s.data.arrayEnd → ∀ p, ¬ Asleep s p) := by
  obtain ⟨⟨hnonneg, hle, hall, horder⟩, hwake⟩ := inv_of_run hrun
  refine ⟨hnonneg, hle, hall, fun before j after => horder before _ after,
    fun before p value after => horder before _ after, ?_⟩
  rintro hnone hpos p ⟨a, ha⟩
  refine hwake (by omega) (fun q hq => hnone ⟨q, Or.inr hq⟩) p ?_
  rw [ha]
  exact Or.inr rfl

/-- The reader falls asleep; two interrupts; the reader wakes up and takes the first time. -/
def twoInterrupts : List (Act Bool) :=
  .read true ⟨false, 16, 16⟩ :: List.replicate 6 (.run true) ++
  [.interrupt false, .run false, .run false, .tick, .interrupt false, .run false, .run false] ++
  List.replicate 3 (.run true)

theorem timestamps_fifo_twoInterrupts :
    ∃ (s : State Bool) (log : List (Event Bool)),
      (system .v10 .lp64 Bool).exec (init Bool (fun _ => 0) 7) twoInterrupts = some (s, log) ∧
      removed log = [7] ∧ s.data.pending = [8] ∧ removed log ++ s.data.pending = recorded log ∧
      ∀ p, ¬ Asleep s p := by
  obtain ⟨⟨s, log⟩, hrun, hval⟩ := Option.map_eq_some_iff.1
    (show ((system .v10 .lp64 Bool).exec (init Bool (fun _ => 0) 7) twoInterrupts).map
        (fun r => (removed r.2, r.1.data.pending, r.1.data.arrayEnd, r.1.proc false,
          r.1.proc true)) =
      some ([7], [8], 1, .outside, .read ⟨false, 16, 16⟩ (.format 7)) by decide +kernel)
  simp only [Prod.mk.injEq] at hval
  obtain ⟨hremoved, hpending, hend, hfalse, htrue⟩ := hval
  obtain ⟨-, -, hall, -, -, hawake⟩ := timestamps_fifo hrun
  have hidle : ¬ HandlerRunning s := by
    rintro ⟨p, hp⟩
    cases p <;> simp [hfalse, htrue] at hp
  exact ⟨s, log, hrun, hremoved, hpending, hall, hawake hidle (by omega)⟩

end IldDrivers.Timestamps
