import IldDrivers.Lib.Transition
import IldDrivers.Lib.WaitQueue
import IldDrivers.Messages.Queue

/-!
# The blocking message queue (`tp-V-04`)

Any number of processes are inside `messages_read` or `messages_write` at once. Each stands at a
statement of the source (`Pc`); a step of the machine is one statement of one process, and the
schedule chooses the process. Both functions have the same frame, lines 36–45 and 75–84:

    lock; while (no message / no room) { unlock; wait_event; lock } …

and differ in the condition (`blocked`), in the wait queue they sleep on, and in what follows.
A signal may end a process's wait for the mutex or for its condition at any time.

* `Act.start p c`: process `p` enters the driver; `Act.run p`: its next statement;
  `Act.signal p`: a signal for it;
* the step that releases the mutex for the last time outputs a `Section`, the effect of the
  call's last critical section; the step that leaves the driver outputs the value returned;
* the offset of an open file is the cell `*offset`; it is read and written with the mutex held.
-/

namespace IldDrivers.TpV04

variable {Pid File : Type*}

/-- The statement a process is about to execute, with the arguments and the local `ret` that the
rest of the call still needs. -/
inductive Pc (File : Type*)
  /-- `mutex_lock_interruptible` on entry. -/
  | lock
  /-- The test of the `while`. -/
  | loop
  /-- `mutex_unlock` in the loop. -/
  | unlockWait
  /-- `wait_event_interruptible`. -/
  | wait (w : WaitPoint)
  /-- `mutex_lock_interruptible` in the loop. -/
  | relock
  /-- The first statement after the loop. -/
  | body
  /-- `copy_to_user`, `ret` being already bounded by `length`. -/
  | copyOut (f : File) (u : UserRead) (ret : ℤ)
  /-- `messages_count--`. -/
  | decrement
  | shift
  /-- `copy_from_user`. -/
  | copyIn (u : UserWrite)
  /-- `messages_count++`. -/
  | increment (u : UserWrite)
  /-- `wake_up_interruptible` of the other side's queue, `ret` being what is returned after it. -/
  | wake (ret : ℤ)
  /-- The last `mutex_unlock`, with what is to be returned. -/
  | unlock (ret : ℤ) (user : List UInt8)
  | ret (ret : ℤ)

/-- A process: in user space, or inside a call. -/
inductive Proc (File : Type*)
  | user
  | call (c : Call File) (pc : Pc File)

structure State (Pid File : Type*) where
  shared : Shared File
  /-- The holder of `messages_mutex`. -/
  mutex : Option Pid
  proc : Pid → Proc File

inductive Act (Pid File : Type*)
  | start (p : Pid) (c : Call File)
  | run (p : Pid)
  | signal (p : Pid)

/-- Process `p` makes the call `c` and executes `n` statements of it. -/
def Act.solo (p : Pid) (c : Call File) (n : ℕ) : List (Act Pid File) :=
  .start p c :: List.replicate n (.run p)

/-- The last critical section of a call: who, which call, and its effect when the mutex is
released. -/
structure Section (Pid File : Type*) where
  pid : Pid
  call : Call File
  effect : Effect File

inductive Output (Pid File : Type*)
  | finished (s : Section Pid File)
  | returned (p : Pid) (c : Call File) (ret : ℤ)

/-- The condition under which the `while` loop goes round: no message to read, no row to write. -/
def blocked (c : Call File) (q : Queue) : Bool :=
  match c with
  | .read _ _ => q.messagesCount == 0
  | .write _ _ => decide (q.messagesCount ≥ msgNbMax)

/-- `wake_up_interruptible`, executed inside the call `c`: a reader wakes `messages_write_wq`, a
writer `messages_read_wq`. -/
def wakesUp (c c' : Call File) : Bool :=
  match c, c' with
  | .read _ _, .write _ _ => true
  | .write _ _, .read _ _ => true
  | _, _ => false

def wakeUp (c : Call File) (proc : Pid → Proc File) : Pid → Proc File := fun p =>
  match proc p with
  | .call c' (.wait w) => if wakesUp c c' then .call c' (.wait w.wake) else .call c' (.wait w)
  | x => x

/-- Process `p` is now at `x`. -/
def State.setProc [DecidableEq Pid] (s : State Pid File) (p : Pid) (x : Proc File) :
    State Pid File :=
  { s with proc := Function.update s.proc p x }

/-- Process `p` goes on to the statement `pc` of its call. -/
abbrev State.goto [DecidableEq Pid] (s : State Pid File) (p : Pid) (c : Call File)
    (pc : Pc File) : State Pid File :=
  s.setProc p (.call c pc)

variable [DecidableEq Pid] [DecidableEq File]

/-- The statements that follow the loop in `messages_read` and `messages_write`; only the process
that holds the mutex is there. The result is the module and the files after the statement at the
given point, and the next statement. -/
def bodyStep (abi : Abi) (c : Call File) (sh : Shared File) : Pc File → Shared File × Pc File
  | .body =>
      match c with
      | .read f u =>
          let ret := abi.ssize (sh.queue.strlenHead - sh.offset f)
          if ret ≤ 0 then (sh, .decrement)
          else (sh, .copyOut f u (if ret > u.length then (u.length : ℤ) else ret))
      | .write _ u =>
          if (u.data.length : ℤ) ≥ msgLgMax then (sh, .unlock (-eInval) [])
          else (sh, .copyIn u)
  | .copyOut f u ret =>
      let r := copyToUser (sh.queue.source u.outside (sh.offset f) ret.toNat) u.copied
      if r.2 ≠ 0 then (sh, .unlock (-eFault) r.1)
      else ({ sh with offset := Function.update sh.offset f (sh.offset f + ret) },
        .unlock ret r.1)
  | .decrement => ({ sh with queue := sh.queue.decrement }, .shift)
  | .shift => ({ sh with queue := sh.queue.shift }, .wake 0)
  | .copyIn u =>
      let r := sh.queue.copyIn u.data u.copied
      if r.2 ≠ 0 then ({ sh with queue := r.1 }, .unlock (-eFault) [])
      else ({ sh with queue := r.1 }, .increment u)
  | .increment u => ({ sh with queue := sh.queue.increment }, .wake u.data.length)
  | .wake ret => (sh, .unlock ret [])
  | pc => (sh, pc)

/-- The next statement of process `p`, which stands at `pc` in the call `c`; `none` when it cannot
go on by itself. -/
def runStep (abi : Abi) (s : State Pid File) (p : Pid) (c : Call File) :
    Pc File → Option (State Pid File × List (Output Pid File))
  | .lock =>
      if s.mutex = none then some ({ s with mutex := some p }.goto p c .loop, []) else none
  | .loop =>
      some (s.goto p c (if blocked c s.shared.queue then .unlockWait else .body), [])
  | .unlockWait => some ({ s with mutex := none }.goto p c (.wait .test), [])
  | .wait w =>
      match w.advance (!blocked c s.shared.queue) with
      | some (.goto w') => some (s.goto p c (.wait w'), [])
      | some .finish => some (s.goto p c .relock, [])
      | some .interrupted => some (s.goto p c (.ret (-eRestartSys)), [])
      | none => none
  | .relock =>
      if s.mutex = none then some ({ s with mutex := some p }.goto p c .loop, []) else none
  | .unlock ret user =>
      some ({ s with mutex := none }.goto p c (.ret ret), [.finished ⟨p, c, s.shared, ret, user⟩])
  | .ret ret =>
      some (s.setProc p .user, [.returned p c ret])
  | .wake ret =>
      let r := bodyStep abi c s.shared (.wake ret)
      some ({ s with shared := r.1, proc := wakeUp c s.proc }.goto p c r.2, [])
  | pc =>
      let r := bodyStep abi c s.shared pc
      some ({ s with shared := r.1 }.goto p c r.2, [])

/-- A signal for process `p`, which stands at `pc` in the call `c`. -/
def signalStep (s : State Pid File) (p : Pid) (c : Call File) :
    Pc File → Option (State Pid File × List (Output Pid File))
  | .lock | .relock => some (s.goto p c (.ret (-eRestartSys)), [])
  | .wait w =>
      match w.interrupt (!blocked c s.shared.queue) with
      | some (.goto w') => some (s.goto p c (.wait w'), [])
      | some .interrupted => some (s.goto p c (.ret (-eRestartSys)), [])
      | _ => none
  | _ => none

def step (abi : Abi) (s : State Pid File) :
    Act Pid File → Option (State Pid File × List (Output Pid File))
  | .start p c =>
      match s.proc p with
      | .user => some (s.goto p c .lock, [])
      | .call _ _ => none
  | .run p =>
      match s.proc p with
      | .user => none
      | .call c pc => runStep abi s p c pc
  | .signal p =>
      match s.proc p with
      | .user => none
      | .call c pc => signalStep s p c pc

/-- The processes using the module. -/
def system (abi : Abi) (Pid File : Type*) [DecidableEq Pid] [DecidableEq File] :
    System (State Pid File) (Act Pid File) (Output Pid File) := ⟨step abi⟩

/-- The module just loaded, with files open at the given offsets and nobody inside. -/
def init (Pid : Type*) (offset : File → ℤ) : State Pid File :=
  ⟨⟨Queue.init, offset⟩, none, fun _ => .user⟩

end IldDrivers.TpV04
