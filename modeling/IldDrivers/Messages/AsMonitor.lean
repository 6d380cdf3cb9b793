import IldDrivers.Lib.MonitorSections
import IldDrivers.Messages.Blocking

/-!
# The blocking message queue is a monitor

`tp-V-04` takes the same steps as a monitor over the module and the offsets of the open files
(`lockstep`), so what holds of the runs of every monitor holds of its runs. The monitor knows more than
the machine of a call that is about to return, and less of one that waits for the mutex:

* `Pc.At`: the points of the monitor at which a statement of `tp-V-04` can stand. Both locks are one
  point; a call that returns keeps its whole answer, and one that a signal ends has none;
* `Alike`: a state of `tp-V-04` and one of the monitor with the same module, mutex and points;
* `Act.toMonitor`, `Output.ofMonitor`: the actions, and the outputs read back;
* `exec_toMonitor`: every run from the module just loaded, as one of the monitor.
-/

namespace IldDrivers

variable {Pid File : Type*}

/-- What a call returns, and what it has put in the caller's buffer. -/
abbrev Answer : Type := ℤ × List UInt8

/-- The effect of a call's last critical section. -/
def sectionEffect (x : Monitor.Section Pid (Shared File) (Call File) Answer) : Effect File :=
  ⟨x.after, x.ret.1, x.ret.2⟩

/-- The section of a monitor, as one of `tp-V-04`. -/
def asSection (x : Monitor.Section Pid (Shared File) (Call File) Answer) :
    TpV04.Section Pid File := ⟨x.pid, x.call, sectionEffect x⟩

namespace TpV04

/-- At a statement between the loop and the wake-up or the unlock. -/
def Pc.inBody : Pc File → Bool
  | .body | .copyOut _ _ _ | .decrement | .shift | .copyIn _ | .increment _ => true
  | _ => false

/-- What follows a statement of a body: another, or the unlock with the answer. The other statements
follow none of a body. -/
def Pc.following : Pc File → Pc File ⊕ Answer
  | .unlock r user => .inr (r, user)
  | .wake r => .inl (.wake r)
  | pc => if pc.inBody then .inl pc else .inr (0, [])

/-- `messages_read` and `messages_write` of `tp-V-04`. -/
def monitor [DecidableEq File] (abi : Abi) :
    Monitor (Shared File) (Call File) (Pc File) Answer where
  blocked c sh := blocked c sh.queue
  entry _ := .body
  stmt c sh pc := ((bodyStep abi c sh pc).1, (bodyStep abi c sh pc).2.following)
  wakes c pc c' :=
    match pc with
    | .wake _ => wakesUp c c'
    | _ => false

/-- A state of the monitor. -/
abbrev MonitorState (Pid File : Type*) :=
  Monitor.State Pid (Shared File) (Call File) (Pc File) Answer

/-- What the monitor puts out. -/
abbrev MonitorOutput (Pid File : Type*) := Monitor.Output Pid (Shared File) (Call File) Answer

/-- The value that is returned: a call without an answer has been ended by a signal. -/
def valueOf : Option Answer → ℤ
  | some a => a.1
  | none => -eRestartSys

/-- The points of the monitor at which a statement stands. -/
inductive Pc.At : Pc File → Monitor.Point (Pc File) Answer → Prop
  | lock : At .lock .lock
  | relock : At .relock .lock
  | loop : At .loop .loop
  | unlockWait : At .unlockWait .unlockWait
  | wait (w : WaitPoint) : At (.wait w) (.wait w)
  | body (pc : Pc File) (hpc : pc.inBody = true) : At pc (.body pc)
  | wake (r : ℤ) : At (.wake r) (.body (.wake r))
  | unlock (r : ℤ) (user : List UInt8) : At (.unlock r user) (.unlock (r, user))
  | ret (a : Option Answer) : At (.ret (valueOf a)) (.ret a)

inductive Proc.At : Proc File → Monitor.Proc (Call File) (Pc File) Answer → Prop
  | user : At .user .outside
  | call (c : Call File) {pc : Pc File} {pt : Monitor.Point (Pc File) Answer} (hpc : pc.At pt) :
      At (.call c pc) (.inside c pt)

/-- The same module and mutex, and everybody at the same point. -/
structure Alike (s : State Pid File) (m : MonitorState Pid File) : Prop where
  object : m.object = s.shared
  mutex : m.mutex = s.mutex
  proc : ∀ p, (s.proc p).At (m.proc p)

def Act.toMonitor : Act Pid File → Monitor.Act Pid (Call File)
  | .start p c => .start p c
  | .run p => .run p
  | .signal p => .signal p

def Output.ofMonitor : MonitorOutput Pid File → Output Pid File
  | .finished x => .finished (asSection x)
  | .returned p c a => .returned p c (valueOf a)

/-! ### Where the processes stand -/

theorem Alike.inside {s : State Pid File} {m : MonitorState Pid File} (h : Alike s m) {p : Pid}
    {c : Call File} {pc : Pc File} (hp : s.proc p = .call c pc) :
    ∃ pt, m.proc p = .inside c pt ∧ pc.At pt := by
  have hat := h.proc p
  rw [hp] at hat
  cases hm : m.proc p with
  | outside =>
    rw [hm] at hat
    cases hat
  | inside c' pt =>
    rw [hm] at hat
    cases hat with
    | call c hpc => exact ⟨pt, rfl, hpc⟩

theorem Alike.returning {s : State Pid File} {m : MonitorState Pid File} (h : Alike s m) {p : Pid}
    {c : Call File} {r : ℤ} (hp : s.proc p = .call c (.ret r)) :
    ∃ a, m.proc p = .inside c (.ret a) ∧ valueOf a = r := by
  obtain ⟨pt, hm, hat⟩ := h.inside hp
  cases hat with
  | body _ hbody => cases hbody
  | ret a => exact ⟨a, hm, rfl⟩

theorem alike_init (offset : File → ℤ) :
    Alike (init Pid offset) (Monitor.init Pid _ _ _ ⟨Queue.init, offset⟩) :=
  ⟨rfl, rfl, fun _ => .user⟩

/-- Past the loop, the mutex not yet released. -/
def Pc.midway : Pc File → Bool
  | .wake _ | .unlock _ _ => true
  | pc => pc.inBody

theorem at_next {pc : Pc File} (h : pc.midway = true) : pc.At (.next pc.following) := by
  cases pc with
  | lock | loop | unlockWait | wait | relock | ret => cases h
  | body | copyOut | decrement | shift | copyIn | increment => exact .body _ rfl
  | wake r => exact .wake r
  | unlock r user => exact .unlock r user

/-- A section is left only by its unlock. -/
theorem midway_bodyStep [DecidableEq File] {abi : Abi} {c : Call File} {sh : Shared File}
    {pc : Pc File} (h : pc.midway = true) : (bodyStep abi c sh pc).2.midway = true := by
  cases pc with
  | lock | loop | unlockWait | wait | relock | ret => cases h
  | body =>
    cases c <;> simp only [bodyStep] <;> split_ifs <;> rfl
  | copyOut | copyIn => simp only [bodyStep]; split_ifs <;> rfl
  | decrement | shift | increment | wake | unlock => rfl

/-! ### The steps -/

section Setters

variable [DecidableEq Pid]

@[simp] theorem setProc_self (s : State Pid File) (p : Pid) (x : Proc File) :
    (s.setProc p x).proc p = x := Function.update_self ..

theorem setProc_of_ne {s : State Pid File} {p q : Pid} (h : q ≠ p) (x : Proc File) :
    (s.setProc p x).proc q = s.proc q := Function.update_of_ne h ..

/-- Process `p` moves in both, and the others have been moved together. -/
theorem alike_setProc {p : Pid} {x : Proc File} {y : Monitor.Proc (Call File) (Pc File) Answer}
    {sh : Shared File} {mutex : Option Pid} {proc : Pid → Proc File}
    {proc' : Pid → Monitor.Proc (Call File) (Pc File) Answer} (hx : x.At y)
    (hproc : ∀ q, (proc q).At (proc' q)) :
    Alike ((⟨sh, mutex, proc⟩ : State Pid File).setProc p x)
      ((⟨sh, mutex, proc'⟩ : MonitorState Pid File).setProc p y) := by
  refine ⟨rfl, rfl, fun q => ?_⟩
  by_cases hq : q = p
  · rw [hq, setProc_self, Monitor.setProc_self]
    exact hx
  · rw [setProc_of_ne hq, Monitor.setProc_of_ne hq]
    exact hproc q

end Setters

variable [DecidableEq File] {abi : Abi}

/-- A wake-up reaches the same processes. -/
theorem at_wakeUp (c : Call File) (r : ℤ) {proc : Pid → Proc File}
    {proc' : Pid → Monitor.Proc (Call File) (Pc File) Answer} (h : ∀ q, (proc q).At (proc' q))
    (q : Pid) : (wakeUp c proc q).At ((monitor abi).wakeAll c (.wake r) proc' q) := by
  have hq := h q
  simp only [wakeUp, Monitor.wakeAll]
  generalize proc q = x at hq ⊢
  generalize proc' q = y at hq ⊢
  cases hq with
  | user => exact .user
  | @call c' pc pt hpc =>
    cases hpc with
    | wait w =>
      change Proc.At (if wakesUp c c' = true then .call c' (.wait w.wake) else .call c' (.wait w))
        (.inside c' (.wait (if wakesUp c c' = true then w.wake else w)))
      split_ifs <;> exact .call c' (.wait _)
    | body _ hbody => cases pc <;> first | exact .call c' (.body _ hbody) | cases hbody
    | lock => exact .call c' .lock
    | relock => exact .call c' .relock
    | loop => exact .call c' .loop
    | unlockWait => exact .call c' .unlockWait
    | wake r' => exact .call c' (.wake r')
    | unlock r' user => exact .call c' (.unlock r' user)
    | ret a => exact .call c' (.ret a)

variable [DecidableEq Pid]

/-- The results of two steps are alike. -/
abbrev AlikeResults :
    Option (State Pid File × List (Output Pid File)) →
      Option (MonitorState Pid File × List (MonitorOutput Pid File)) → Prop :=
  Option.Rel fun x y => Alike x.1 y.1 ∧ x.2 = y.2.map Output.ofMonitor

variable {sh : Shared File} {mutex : Option Pid} {proc : Pid → Proc File}
  {proc' : Pid → Monitor.Proc (Call File) (Pc File) Answer} {p : Pid} {pc : Pc File}
  {pt : Monitor.Point (Pc File) Answer}

/-- A statement of a body that wakes nobody. -/
theorem alike_runStep_body (hproc : ∀ q, (proc q).At (proc' q)) (c : Call File)
    (hpc : pc.inBody = true) :
    AlikeResults (runStep abi ⟨sh, mutex, proc⟩ p c pc)
      ((monitor abi).runStep ⟨sh, mutex, proc'⟩ p c (.body pc)) := by
  have hrun : runStep abi ⟨sh, mutex, proc⟩ p c pc = some
      ((⟨(bodyStep abi c sh pc).1, mutex, proc⟩ : State Pid File).goto p c
        (bodyStep abi c sh pc).2, []) := by
    cases pc <;> first | rfl | cases hpc
  have hwakes : (monitor abi).wakeAll c pc proc' = proc' :=
    Monitor.wakeAll_of_wakes_eq_false (fun c' => by cases pc <;> first | rfl | cases hpc) _
  have hmidway : pc.midway = true := by cases pc <;> first | exact hpc | rfl
  simp only [hrun, Monitor.runStep, hwakes]
  exact .some ⟨alike_setProc (.call c (at_next (midway_bodyStep hmidway))) hproc, rfl⟩

theorem alike_runStep (hproc : ∀ q, (proc q).At (proc' q)) (c : Call File) (hpc : pc.At pt) :
    AlikeResults (runStep abi ⟨sh, mutex, proc⟩ p c pc)
      ((monitor abi).runStep ⟨sh, mutex, proc'⟩ p c pt) := by
  cases hpc with
  | lock | relock =>
    cases mutex with
    | none => exact .some ⟨alike_setProc (.call c .loop) hproc, rfl⟩
    | some q => exact .none
  | loop =>
    refine .some ⟨alike_setProc (.call c ?_) hproc, rfl⟩
    change Pc.At (if blocked c sh.queue = true then .unlockWait else .body)
      (if blocked c sh.queue = true then .unlockWait else .body .body)
    split_ifs
    · exact .unlockWait
    · exact .body _ rfl
  | unlockWait => exact .some ⟨alike_setProc (.call c (.wait _)) hproc, rfl⟩
  | wait w =>
    simp only [runStep, Monitor.runStep]
    rw [show (monitor abi).blocked c sh = blocked c sh.queue from rfl]
    cases hmove : w.advance (!blocked c sh.queue) with
    | none => exact .none
    | some move =>
      cases move with
      | goto w' => exact .some ⟨alike_setProc (.call c (.wait w')) hproc, rfl⟩
      | finish => exact .some ⟨alike_setProc (.call c .relock) hproc, rfl⟩
      | interrupted => exact absurd hmove (w.advance_ne_interrupted _)
  | body pc hbody => exact alike_runStep_body hproc c hbody
  | wake r => exact .some ⟨alike_setProc (.call c (.unlock r [])) (at_wakeUp c r hproc), rfl⟩
  | unlock r user => exact .some ⟨alike_setProc (.call c (.ret (some (r, user)))) hproc, rfl⟩
  | ret a => exact .some ⟨alike_setProc .user hproc, rfl⟩

theorem alike_signalStep (hproc : ∀ q, (proc q).At (proc' q)) (c : Call File) (hpc : pc.At pt) :
    AlikeResults (signalStep ⟨sh, mutex, proc⟩ p c pc)
      ((monitor abi).signalStep ⟨sh, mutex, proc'⟩ p c pt) := by
  cases hpc with
  | lock | relock => exact .some ⟨alike_setProc (.call c (.ret none)) hproc, rfl⟩
  | wait w =>
    simp only [signalStep, Monitor.signalStep]
    rw [show (monitor abi).blocked c sh = blocked c sh.queue from rfl]
    cases w.interrupt (!blocked c sh.queue) with
    | none => exact .none
    | some move =>
      cases move with
      | goto w' => exact .some ⟨alike_setProc (.call c (.wait w')) hproc, rfl⟩
      | finish => exact .none
      | interrupted => exact .some ⟨alike_setProc (.call c (.ret none)) hproc, rfl⟩
  | body pc hbody => cases pc <;> first | exact .none | cases hbody
  | loop | unlockWait | wake | unlock | ret => exact .none

/-- **`tp-V-04` takes the steps of the monitor.** -/
theorem lockstep (abi : Abi) :
    (system abi Pid File).Lockstep ((monitor abi).system Pid) Alike Act.toMonitor
      Output.ofMonitor := by
  rintro ⟨sh, mutex, proc⟩ ⟨_, _, proc'⟩ a ⟨rfl, rfl, hproc⟩
  cases a with
  | start p c =>
    have hp : (proc p).At (proc' p) := hproc p
    simp only [system, step, Monitor.system, Monitor.step, Act.toMonitor]
    generalize proc p = x, proc' p = y at hp ⊢
    cases hp with
    | user => exact .some ⟨alike_setProc (.call c .lock) hproc, rfl⟩
    | call => exact .none
  | run p =>
    have hp : (proc p).At (proc' p) := hproc p
    simp only [system, step, Monitor.system, Monitor.step, Act.toMonitor]
    generalize proc p = x, proc' p = y at hp ⊢
    cases hp with
    | user => exact .none
    | call c hpc => exact alike_runStep hproc c hpc
  | signal p =>
    have hp : (proc p).At (proc' p) := hproc p
    simp only [system, step, Monitor.system, Monitor.step, Act.toMonitor]
    generalize proc p = x, proc' p = y at hp ⊢
    cases hp with
    | user => exact .none
    | call c hpc => exact alike_signalStep hproc c hpc

/-- A run of `tp-V-04`, as one of the monitor. -/
theorem exec_toMonitor {offset : File → ℤ} {acts : List (Act Pid File)} {s : State Pid File}
    {log : List (Output Pid File)}
    (hrun : (system abi Pid File).exec (init Pid offset) acts = some (s, log)) :
    ∃ m mlog, ((monitor abi).system Pid).exec (Monitor.init Pid _ _ _ ⟨Queue.init, offset⟩)
        (acts.map Act.toMonitor) = some (m, mlog) ∧ Alike s m ∧ log = mlog.map Output.ofMonitor :=
  (lockstep abi).exec (alike_init offset) hrun

end TpV04

end IldDrivers
