import IldDrivers.Kernel
import IldDrivers.Lib.Decimal
import IldDrivers.Lib.Transition
import Mathlib.Data.Finset.Insert
import Mathlib.Data.Fintype.Basic

/-!
# The USB drivers (`example-VII-04`, `example-VII-05`)

The driver of an interface board that is written, and from `example-VII-05` on also read, through
interrupt endpoints. Each direction has its endpoint, its URB, a transfer buffer, a mutex, a wait
queue and a flag `busy`; `example_write` and `example_read` handle them in the same way:

    lock; test the device; while (busy) wait; busy = 1; fill; submit; while (busy) wait; …

Any number of processes are inside the driver. A step is one statement of one process, or of the
hub thread that runs `example_disconnect`, or an event outside the driver: a signal, the end of a
timeout, the completion of a URB, whose callback clears `busy`.

* `callStep`: the statements of `example_write` and `example_read`;
* `releaseStep`: those of `example_release`, which in `example-VII-04` waits for the URB and kills
  it when it does not complete;
* `unplugStep`: those of `example_disconnect`.

A statement that follows an invalid pointer has no next state. `usb_submit_urb` refuses a URB that
is in flight; otherwise its result is in the hands of the schedule, as are `kmalloc` and the user
copies.
-/

namespace IldDrivers.ExampleVII

inductive Version
  | vii04
  | vii05
  deriving DecidableEq

/-- What is fixed for a run: the program, the machine it is built for, and the kernel's `sscanf`
with the format of `example_write`, `none` unless it converts eight numbers. -/
structure Setup where
  version : Version
  abi : Abi
  sscanf : List UInt8 → Option (Fin 8 → ℤ)

/-- The two sides of the driver: `example_out_…` and `example_in_…`. -/
inductive Direction
  | output
  | input
  deriving DecidableEq

inductive Ptr
  | null
  | valid
  /-- To memory that has been freed. -/
  | dangling
  deriving DecidableEq

/-- Who can hold the mutex of a direction. -/
inductive Holder (Pid : Type*)
  | proc (p : Pid)
  /-- The thread that runs `example_disconnect`. -/
  | hub
  deriving DecidableEq

/-- The variables of one direction, with the contents of the transfer buffer and the state of the
URB. -/
structure Channel (Pid : Type*) where
  mtx : Option (Holder Pid)
  busy : ℤ
  endpoint : Ptr
  urb : Ptr
  buffer : Ptr
  bytes : Memory UInt8
  /-- Submitted, and its callback not yet called. -/
  inFlight : Bool
  status : ℤ

/-- A `write`: the bytes of the user, what `kmalloc` returns (`none` when it fails) and how many
bytes can be copied. -/
structure WriteArgs where
  data : List UInt8
  heap : Option (Memory UInt8)
  copied : ℕ

/-- A `read`: the value of `*offset`, the length, and how many bytes can be copied. -/
structure ReadArgs where
  offset : ℕ
  length : ℕ
  copied : ℕ

inductive Call
  | write (a : WriteArgs)
  | read (a : ReadArgs)

def Call.dir : Call → Direction
  | .write _ => .output
  | .read _ => .input

/-- The three exits that execute `busy = 0`. -/
inductive Site
  /-- `usb_submit_urb` has failed. -/
  | submit
  /-- A signal has ended the second wait. -/
  | signal
  /-- The URB has completed with an error. -/
  | status
  deriving DecidableEq

/-- The statement a call is about to execute. -/
inductive Pc
  /-- The statements before the mutex: `prepare` in `example_write`, the test of `*offset` in
  `example_read`. -/
  | enter
  | lock
  /-- `example_usb_device == NULL`. -/
  | testDevice
  /-- `mutex_unlock` after that test has succeeded. -/
  | unlockNoDev
  /-- The first `while (busy)`, and its wait. -/
  | busyTest
  | busyWait
  /-- `busy = 1`. -/
  | setBusy
  /-- `example_out_buffer[i] = …`. -/
  | store (i : Fin 8)
  /-- `usb_fill_int_urb`. -/
  | fill
  | submit
  /-- The second `while (busy)`, and its wait. -/
  | doneTest
  | doneWait
  | checkStatus
  /-- `busy = 0` on the way out. -/
  | clearBusy (site : Site) (ret : ℤ)
  /-- `snprintf`. -/
  | format
  /-- Any other `mutex_unlock`, followed by a `return` or, at the end of the block of
  `example_read`, by what comes after it. -/
  | unlock (ret : Option ℤ)
  /-- The computation of `lg`. -/
  | measure
  /-- `copy_to_user`. -/
  | copyOut (lg : ℕ)
  /-- With the bytes given to the user and what was added to `*offset`. -/
  | ret (ret : ℤ) (user : List UInt8) (advance : ℕ)
  deriving DecidableEq

/-- The statement `example_release` is about to execute. -/
inductive ReleasePc
  | lock
  /-- The two `if (example_out_busy)`, and what they guard. -/
  | test
  | wait
  | testAgain
  | kill
  | clearBusy
  /-- `example_open_count--`. -/
  | decrement
  | unlock
  | ret (ret : ℤ)
  deriving DecidableEq

/-- A process: in user space, inside a call with its locals `o0`, …, `o7`, or inside
`example_release`. -/
inductive Proc
  | user
  | call (c : Call) (o : Fin 8 → ℤ) (pc : Pc)
  | release (pc : ReleasePc)

/-- Where a process stands in a call. -/
def Proc.place : Proc → Option (Direction × Pc)
  | .call c _ pc => some (c.dir, pc)
  | _ => none

theorem Proc.eq_call_of_place {x : Proc} {d : Direction} {pc : Pc} (h : x.place = some (d, pc)) :
    ∃ c o, x = .call c o pc ∧ c.dir = d := by
  cases x with
  | user | release => cases h
  | call c o pc' =>
    cases h
    exact ⟨c, o, rfl, rfl⟩

/-- A statement of `example_disconnect`. -/
inductive UnplugStmt
  /-- `usb_deregister_dev`. -/
  | deregister
  /-- `example_usb_device = NULL`. -/
  | clearDevice
  | lock (d : Direction)
  /-- `kfree` of the buffer. -/
  | kfree (d : Direction)
  | clearBuffer (d : Direction)
  /-- `usb_free_urb`. -/
  | freeUrb (d : Direction)
  | clearUrb (d : Direction)
  | clearEndpoint (d : Direction)
  | unlock (d : Direction)
  deriving DecidableEq

/-- The body of `example_disconnect`. -/
def exampleDisconnect : Version → List UnplugStmt
  | .vii04 =>
      [.deregister, .clearDevice,
        .lock .output, .kfree .output, .freeUrb .output, .clearUrb .output, .clearBuffer .output,
        .clearEndpoint .output, .unlock .output]
  | .vii05 =>
      [.deregister, .clearDevice,
        .lock .input, .kfree .input, .clearBuffer .input, .freeUrb .input, .clearUrb .input,
        .clearEndpoint .input, .unlock .input,
        .lock .output, .kfree .output, .freeUrb .output, .clearUrb .output, .clearBuffer .output,
        .clearEndpoint .output, .unlock .output]

structure State (Pid : Type*) where
  /-- `example_usb_device`. -/
  device : Ptr
  /-- Whether the device node is there to be opened. -/
  registered : Bool
  chan : Direction → Channel Pid
  /-- The static `k_buffer` of `example_read`. -/
  kBuffer : Memory UInt8
  /-- `example_mtx`. -/
  mtx : Option Pid
  openCount : ℤ
  /-- Files open on the device. -/
  opened : ℕ
  /-- The processes inside a call. -/
  inside : Finset Pid
  proc : Pid → Proc
  /-- What `example_disconnect` has still to execute. -/
  unplug : List UnplugStmt

/-- What happens to a process inside a call. -/
inductive Event
  /-- Its next statement. -/
  | run
  /-- Its call of `usb_submit_urb`, with the result. -/
  | submit (err : ℤ)
  | signal
  | timeout

inductive Act (Pid : Type*)
  /-- `open`; a signal may come while it waits for `example_mtx`. -/
  | openFile (p : Pid) (signal : Bool)
  | start (p : Pid) (c : Call)
  /-- The last `close` of a file. -/
  | startRelease (p : Pid)
  | proc (p : Pid) (e : Event)
  /-- The URB of a direction completes; `data` has arrived from the device. -/
  | complete (d : Direction) (status : ℤ) (data : List UInt8)
  /-- The next statement of `example_disconnect`. -/
  | unplug

/-- Process `p` opens the device and executes `n` statements of the call `c`. -/
def Act.enters {Pid : Type*} (p : Pid) (c : Call) (n : ℕ) : List (Act Pid) :=
  .openFile p false :: .start p c :: List.replicate n (.proc p .run)

inductive Output (Pid : Type*)
  | returned (p : Pid) (ret : ℤ) (user : List UInt8) (advance : ℕ)
  deriving DecidableEq

/-! ### The calls -/

/-- `o & 0xFF`. -/
def lowByte (o : ℤ) : UInt8 := UInt8.ofNat (o % 256).toNat

/-- The statements of `example_write` before the mutex; `none` when the length is 0 and
`buffer[length - 1]` is outside the buffer. -/
def prepare (S : Setup) (a : WriteArgs) : Option (Except ℤ (Fin 8 → ℤ)) :=
  match a.heap with
  | none => some (.error (-eNoMem))
  | some heap =>
      let r := copyFromUser heap 0 a.data a.copied
      if r.2 ≠ 0 then some (.error (-eFault))
      else if a.data.length = 0 then none
      else
        let buffer := r.1.store (a.data.length - 1) [0]
        match S.sscanf (cstring (buffer.load 0 a.data.length)) with
        | none => some (.error (-eInval))
        | some o => some (.ok o)

/-- The text that `example_read` makes of the eight bytes received. -/
def formatBytes (m : Memory UInt8) : List UInt8 :=
  [32].intercalate ((m.load 0 8).map fun b => decimal b.toNat) ++ [10]

/-- The URB completes: its callback clears `busy`. -/
def Channel.complete {Pid : Type*} (ch : Channel Pid) (status : ℤ) (bytes : Memory UInt8) :
    Channel Pid :=
  { ch with inFlight := false, status, bytes, busy := 0 }

/-- What a statement of a call reads and writes, except `example_usb_device`. -/
structure Frame (Pid : Type*) where
  ch : Channel Pid
  kBuffer : Memory UInt8
  o : Fin 8 → ℤ
  pc : Pc

variable {Pid : Type*}

abbrev Frame.goto (f : Frame Pid) (pc : Pc) : Frame Pid := { f with pc }

/-- The first statement after `busy = 1`. -/
def Call.afterSetBusy : Call → Pc
  | .write _ => .store 0
  | .read _ => .fill

/-- What follows a successful transfer. -/
def Call.afterStatus : Call → Pc
  | .write a => .unlock (some a.data.length)
  | .read _ => .format

/-- What is returned after a failed transfer. -/
def Call.statusError : Call → ℤ
  | .write _ => -eIo
  | .read _ => 0

/-- The statements before the mutex. -/
def Call.enter (S : Setup) (f : Frame Pid) : Call → Option (Frame Pid)
  | .write a =>
      (prepare S a).map fun
        | .error err => f.goto (.ret err [] 0)
        | .ok o => { f with o, pc := .lock }
  | .read a => some (f.goto (if a.offset = 0 then .lock else .measure))

/-- The statements of `example_read` after the mutex. -/
def tailStep (S : Setup) (a : ReadArgs) (f : Frame Pid) : Pc → Frame Pid
  | .measure =>
      let strlen := (cstring (f.kBuffer.load 0 64)).length
      let lg := ((strlen + 1 - a.offset : ℤ) % 2 ^ S.abi.longBits).toNat
      if lg ≤ 0 then f.goto (.ret 0 [] 0)
      else f.goto (.copyOut (if lg > a.length then a.length else lg))
  | .copyOut lg =>
      let r := copyToUser (f.kBuffer.load a.offset lg) a.copied
      if r.2 ≠ 0 then f.goto (.ret (-eFault) r.1 0) else f.goto (.ret lg r.1 lg)
  | _ => f

/-- The next statement of process `p` in the call `c`. -/
def runStep (S : Setup) (device : Ptr) (p : Pid) (c : Call) (f : Frame Pid) :
    Option (Frame Pid) :=
  match f.pc with
  | .enter => c.enter S f
  | .lock =>
      if f.ch.mtx.isNone then
        some { f with ch := { f.ch with mtx := some (.proc p) }, pc := .testDevice }
      else none
  | .testDevice => some (f.goto (if device = .null then .unlockNoDev else .busyTest))
  | .unlockNoDev =>
      some { f with ch := { f.ch with mtx := none }, pc := .ret (-eNoDev) [] 0 }
  | .busyTest => some (f.goto (if f.ch.busy ≠ 0 then .busyWait else .setBusy))
  | .busyWait => if f.ch.busy = 0 then some (f.goto .busyTest) else none
  | .setBusy => some { f with ch := { f.ch with busy := 1 }, pc := c.afterSetBusy }
  | .store i =>
      if f.ch.buffer = .valid then
        some { f with
          ch := { f.ch with bytes := f.ch.bytes.store i [lowByte (f.o i)] }
          pc := if i = 7 then .fill else .store (i + 1) }
      else none
  | .fill =>
      -- both `usb_sndintpipe` and the endpoint's address are read through their pointers
      if device = .valid ∧ f.ch.endpoint = .valid ∧ f.ch.urb = .valid then some (f.goto .submit)
      else none
  | .submit => none
  | .doneTest => some (f.goto (if f.ch.busy ≠ 0 then .doneWait else .checkStatus))
  | .doneWait => if f.ch.busy = 0 then some (f.goto .doneTest) else none
  | .checkStatus =>
      if f.ch.urb = .valid then
        some (f.goto (if f.ch.status ≠ 0 then .clearBusy .status c.statusError else c.afterStatus))
      else none
  | .clearBusy _ ret => some { f with ch := { f.ch with busy := 0 }, pc := .unlock (some ret) }
  | .format =>
      if f.ch.buffer = .valid then
        some { f with kBuffer :=
            f.kBuffer.store 0 ((formatBytes f.ch.bytes).take 63 ++ [0]), pc := .unlock none }
      else none
  | .unlock (some ret) => some { f with ch := { f.ch with mtx := none }, pc := .ret ret [] 0 }
  | .unlock none => some { f with ch := { f.ch with mtx := none }, pc := .measure }
  | .measure =>
      match c with
      | .read a => some (tailStep S a f .measure)
      | .write _ => none
  | .copyOut lg =>
      match c with
      | .read a => some (tailStep S a f (.copyOut lg))
      | .write _ => none
  | .ret _ _ _ => none

/-- `usb_submit_urb`: 0 only for a URB that is not in flight. -/
def submitStep (f : Frame Pid) (err : ℤ) : Option (Frame Pid) :=
  match f.pc with
  | .submit =>
      if f.ch.urb ≠ .valid then none
      else if err ≠ 0 then some (f.goto (.clearBusy .submit err))
      else if f.ch.inFlight then none
      else some { f with ch := { f.ch with inFlight := true }, pc := .doneTest }
  | _ => none

/-- A signal: it ends the wait for the mutex, and a wait whose condition does not hold. -/
def signalStep (f : Frame Pid) : Option (Frame Pid) :=
  match f.pc with
  | .lock => some (f.goto (.ret (-eRestartSys) [] 0))
  | .busyWait =>
      if f.ch.busy ≠ 0 then some (f.goto (.unlock (some (-eRestartSys)))) else none
  | .doneWait =>
      if f.ch.busy ≠ 0 then some (f.goto (.clearBusy .signal (-eRestartSys))) else none
  | _ => none

/-- A wait has lasted for `HZ`; it returns 0 and the loop tests again. -/
def timeoutStep (f : Frame Pid) : Option (Frame Pid) :=
  match f.pc with
  | .busyWait => some (f.goto .busyTest)
  | .doneWait => some (f.goto .doneTest)
  | _ => none

def callStep (S : Setup) (device : Ptr) (p : Pid) (c : Call) (f : Frame Pid) :
    Event → Option (Frame Pid)
  | .run => runStep S device p c f
  | .submit err => submitStep f err
  | .signal => signalStep f
  | .timeout => timeoutStep f

/-! ### `example_open`, `example_release` and `example_disconnect` -/

/-- `example_open`, and what it returns; `none` while `example_mtx` is taken. -/
def exampleOpen (v : Version) (s : State Pid) : Option (State Pid × ℤ) :=
  if s.mtx.isSome then none
  else if s.openCount > 0 then some (s, -eBusy)
  else if v = .vii05 ∧ s.device = .null then some (s, -eNoDev)
  else some ({ s with openCount := s.openCount + 1, opened := s.opened + 1 }, 0)

variable [DecidableEq Pid]

/-- The variables of direction `d` become `ch`. -/
abbrev State.setChan (s : State Pid) (d : Direction) (ch : Channel Pid) : State Pid :=
  { s with chan := Function.update s.chan d ch }

abbrev State.setProc (s : State Pid) (p : Pid) (x : Proc) : State Pid :=
  { s with proc := Function.update s.proc p x }

/-- `usb_kill_urb (example_out_urb)`. -/
def usbKillUrb (s : State Pid) : Option (State Pid) :=
  let ch := s.chan .output
  match ch.urb with
  | .dangling => none
  | .null => some s
  | .valid => some (if ch.inFlight then s.setChan .output (ch.complete (-eNoEnt) ch.bytes) else s)

/-- The next statement of process `p` in `example_release`. -/
def releaseStep (v : Version) (s : State Pid) (p : Pid) : ReleasePc → Option (State Pid)
  | .lock =>
      if s.mtx.isNone then
        some ({ s with mtx := some p }.setProc p
          (.release (match v with | .vii04 => .test | .vii05 => .decrement)))
      else none
  | .test =>
      some (s.setProc p (.release (if (s.chan .output).busy ≠ 0 then .wait else .testAgain)))
  | .wait => if (s.chan .output).busy = 0 then some (s.setProc p (.release .testAgain)) else none
  | .testAgain =>
      some (s.setProc p (.release (if (s.chan .output).busy ≠ 0 then .kill else .clearBusy)))
  | .kill => (usbKillUrb s).map fun s => s.setProc p (.release .clearBusy)
  | .clearBusy =>
      some ((s.setChan .output { s.chan .output with busy := 0 }).setProc p (.release .decrement))
  | .decrement => some ({ s with openCount := s.openCount - 1 }.setProc p (.release .unlock))
  | .unlock => some ({ s with mtx := none }.setProc p (.release (.ret 0)))
  | .ret _ => none

/-- A signal for a process in `example_release`; the result of the wait is not looked at. -/
def releaseSignal (s : State Pid) (p : Pid) : ReleasePc → Option (State Pid)
  | .lock => some (s.setProc p (.release (.ret (-eRestartSys))))
  | .wait => some (s.setProc p (.release .testAgain))
  | _ => none

/-- What `kfree` and `usb_free_urb` do to a pointer; nothing may be freed twice. -/
def Ptr.free : Ptr → Option Ptr
  | .null => some .null
  | .valid => some .dangling
  | .dangling => none

/-- A statement of `example_disconnect`. -/
def unplugStep (s : State Pid) : UnplugStmt → Option (State Pid)
  | .deregister => some { s with registered := false }
  | .clearDevice => some { s with device := .null }
  | .lock d =>
      if (s.chan d).mtx.isNone then some (s.setChan d { s.chan d with mtx := some .hub }) else none
  | .kfree d => (s.chan d).buffer.free.map fun b => s.setChan d { s.chan d with buffer := b }
  | .clearBuffer d => some (s.setChan d { s.chan d with buffer := .null })
  | .freeUrb d => (s.chan d).urb.free.map fun u => s.setChan d { s.chan d with urb := u }
  | .clearUrb d => some (s.setChan d { s.chan d with urb := .null })
  | .clearEndpoint d => some (s.setChan d { s.chan d with endpoint := .null })
  | .unlock d => some (s.setChan d { s.chan d with mtx := none })

/-! ### The machine -/

/-- A call returns. -/
def leave (s : State Pid) (p : Pid) (ret : ℤ) (user : List UInt8) (advance : ℕ) :
    State Pid × List (Output Pid) :=
  ({ s with inside := s.inside.erase p }.setProc p .user, [.returned p ret user advance])

/-- Process `p`, inside the call `c`, goes on as `f` says. -/
abbrev State.setFrame (s : State Pid) (p : Pid) (c : Call) (f : Frame Pid) : State Pid :=
  { s.setChan c.dir f.ch with kBuffer := f.kBuffer }.setProc p (.call c f.o f.pc)

/-- What happens to process `p` inside the call `c`. -/
def procStep (S : Setup) (s : State Pid) (p : Pid) (c : Call) (o : Fin 8 → ℤ) (pc : Pc)
    (e : Event) : Option (State Pid) :=
  (callStep S s.device p c ⟨s.chan c.dir, s.kBuffer, o, pc⟩ e).map (s.setFrame p c)

def step (S : Setup) (s : State Pid) : Act Pid → Option (State Pid × List (Output Pid))
  | .openFile p signal =>
      match s.proc p with
      | .user =>
          if ¬ s.registered then none
          else if signal then some (s, [.returned p (-eRestartSys) [] 0])
          else (exampleOpen S.version s).map fun r => (r.1, [.returned p r.2 [] 0])
      | _ => none
  | .start p c =>
      match s.proc p with
      | .user =>
          if 0 < s.opened ∧ (c.dir = .input → S.version = .vii05) then
            some ({ s with inside := insert p s.inside }.setProc p (.call c (fun _ => 0) .enter), [])
          else none
      | _ => none
  | .startRelease p =>
      match s.proc p with
      | .user =>
          -- a file is released when it is closed and no call uses it any more
          if 0 < s.opened ∧ s.inside = ∅ then
            some ({ s with opened := s.opened - 1 }.setProc p (.release .lock), [])
          else none
      | _ => none
  | .proc p e =>
      match s.proc p with
      | .user => none
      | .call _ _ (.ret ret user advance) =>
          match e with
          | .run => some (leave s p ret user advance)
          | _ => none
      | .call c o pc => (procStep S s p c o pc e).map fun s => (s, [])
      | .release (.ret ret) =>
          match e with
          | .run => some (s.setProc p .user, [.returned p ret [] 0])
          | _ => none
      | .release pc =>
          match e with
          | .run => (releaseStep S.version s p pc).map fun s => (s, [])
          | .signal => (releaseSignal s p pc).map fun s => (s, [])
          | .timeout =>
              if pc = .wait then some (s.setProc p (.release .testAgain), []) else none
          | .submit _ => none
  | .complete d status data =>
      let ch := s.chan d
      if ch.inFlight then
        some (s.setChan d (ch.complete status
          (match d with | .output => ch.bytes | .input => ch.bytes.store 0 data)), [])
      else none
  | .unplug =>
      match s.unplug with
      | [] => none
      | stmt :: rest => (unplugStep s stmt).map fun s => ({ s with unplug := rest }, [])

/-- The processes and the thread using the driver. -/
def system (S : Setup) (Pid : Type*) [DecidableEq Pid] :
    System (State Pid) (Act Pid) (Output Pid) := ⟨step S⟩

/-- A direction as `example_probe` leaves it, with what was in the buffer. -/
def Channel.init (Pid : Type*) (bytes : Memory UInt8) : Channel Pid :=
  { mtx := none, busy := 0, endpoint := .valid, urb := .valid, buffer := .valid, bytes,
    inFlight := false, status := 0 }

/-- The driver after `example_probe` has succeeded, with the statements of `example_disconnect` that
will be executed; there are none while the device stays plugged. (Nothing in `example-VII-04`
touches the input direction.) -/
def init (Pid : Type*) (heap : Direction → Memory UInt8) (unplug : List UnplugStmt) : State Pid :=
  { device := .valid, registered := true, chan := fun d => Channel.init Pid (heap d),
    kBuffer := fun _ => 0, mtx := none, openCount := 0, opened := 0, inside := ∅,
    proc := fun _ => .user, unplug }

/-- The program that the examples run, with a `sscanf` that knows one text. -/
def demo (v : Version) : Setup :=
  ⟨v, .lp64, fun text =>
    if text = [49, 32, 50, 32, 51, 32, 52, 32, 53, 32, 54, 32, 55, 32, 56] then
      some fun i => i.val + 1
    else none⟩

end IldDrivers.ExampleVII
