import IldDrivers.Interrupts.Programs

/-!
# Waiting for several files (`example-select`, `test-select`)

`test-select` opens the files of its command line and calls `select` on all of them, again and again,
with a delay of one second; it reads the files that `select` has reported, one after the other, and
prints what it has read. `select` calls `example_poll` for the device of `example-select`: `poll_wait`
puts the process in `example_waitqueue`, then `example_array_end` is tested under the spinlock. When
no file is ready the process sleeps, unless a wake-up has reached it since; it polls all files again
when it is woken, and a last time when the delay is over.

Any number of processes run `test-select`, others read the device, and interrupts come in. What is in
the other files is not in the driver's hands.

* `SelectPoint`, `Loop`: where a process is in `select` and in the loop of `main`;
* `system`: the driver of `Program.exampleSelect` with the processes that run `test-select`;
* `driver_run`: what the driver does in such a run is a run of its own.
-/

namespace IldDrivers.SelectLoop

open Timestamps (ReadArgs Program)

/-! ### Where a process is -/

/-- A file of the command line. -/
inductive File
  /-- The device of `example-select`. -/
  | device
  | other
  deriving DecidableEq

/-- What `select` keeps from one poll to the next. -/
structure PollTable where
  /-- `poll_wait` has put the process in `example_waitqueue`. -/
  queued : Bool
  /-- A wake-up has reached it since it has last been running. -/
  triggered : Bool
  deriving DecidableEq

/-- The next action of a process in `select`. -/
inductive SelectPoint
  /-- To poll the file of index `i`; `ready` are those found ready, and `expired` tells that the delay
  is over. -/
  | poll (t : PollTable) (i : ℕ) (ready : List ℕ) (expired : Bool)
  /-- No file is ready: to give up the processor. -/
  | schedule (t : PollTable)
  | asleep (t : PollTable)
  deriving DecidableEq

/-- Where a process is in the loop of `main`. -/
inductive Loop
  | select (w : SelectPoint)
  /-- The `for` loop, about to test `FD_ISSET(fd[i], &set)`. -/
  | service (i : ℕ) (ready : List ℕ)
  /-- In `read(fd[i], buffer, LG_BUFFER)`, on the device. -/
  | reading (i : ℕ) (ready : List ℕ)
  | ended
  deriving DecidableEq

/-- The call of `select`. -/
def Loop.start : Loop := .select (.poll ⟨false, false⟩ 0 [] false)

structure State (Pid : Type*) where
  driver : Timestamps.State Pid
  /-- For a process that runs `test-select`. -/
  loop : Pid → Option Loop

/-- What another file answers. -/
structure Reply where
  ready : Bool
  /-- What `read` puts in the buffer, when it returns a positive number. -/
  text : Option (List UInt8)

inductive Act (Pid : Type*)
  /-- An action of the driver's. -/
  | kernel (a : Timestamps.Act Pid)
  /-- The process has opened its files. -/
  | start (p : Pid)
  /-- The next statement of `test-select`; `r` is the answer of the file when it is another. -/
  | run (p : Pid) (r : Reply)
  | timeout (p : Pid)
  /-- A signal ends `select`, and the loop. -/
  | signal (p : Pid)

inductive Event (Pid : Type*)
  | kernel (e : Timestamps.Event Pid)
  /-- `select` has returned. -/
  | selected (p : Pid) (ready : List ℕ)
  /-- `fprintf(stderr, "[%s] : %s\n", argv[1+i], buffer)`. -/
  | printed (p : Pid) (i : ℕ) (text : List UInt8)
  deriving DecidableEq

/-! ### The wake-up -/

/-- `wake_up_interruptible(&example_waitqueue)`. -/
def SelectPoint.wake : SelectPoint → SelectPoint
  | .poll t i ready expired => .poll { t with triggered := t.triggered || t.queued } i ready expired
  | .schedule t => .schedule { t with triggered := t.triggered || t.queued }
  | .asleep t => if t.queued then .poll { t with triggered := false } 0 [] false else .asleep t

def Loop.wake : Loop → Loop
  | .select w => .select w.wake
  | l => l

def wakeAll {Pid : Type*} (loop : Pid → Option Loop) : Pid → Option Loop := fun p =>
  (loop p).map Loop.wake

/-! ### The machine -/

variable {Pid : Type*} [DecidableEq Pid]

def State.setLoop (s : State Pid) (p : Pid) (l : Loop) : State Pid :=
  { s with loop := Function.update s.loop p (some l) }

/-- The call `read(fd[i], buffer, LG_BUFFER)`; the buffer is on the stack of `main`. -/
def lgBuffer : ReadArgs := ⟨false, 4096, 4096⟩

/-- `if (ret > 0) fprintf(...)`. -/
def report (p : Pid) (i : ℕ) (ret : ℤ) (buffer : List UInt8) : List (Event Pid) :=
  if ret > 0 then [.printed p i (cstring buffer)] else []

/-- `select`: a poll of each file, then the decision to return, to sleep or to poll again. -/
def selectStep (argv : List File) (s : State Pid) (p : Pid) (r : Reply) :
    SelectPoint → Option (State Pid × List (Event Pid))
  | .poll t i ready expired =>
      match argv[i]? with
      | some .device =>
          if t.queued then
            let found := if s.driver.data.arrayEnd > 0 then ready ++ [i] else ready
            some (s.setLoop p (.select (.poll t (i + 1) found expired)), [])
          -- `poll_wait`, the first time
          else some (s.setLoop p (.select (.poll { t with queued := true } i ready expired)), [])
      | some .other =>
          let found := if r.ready then ready ++ [i] else ready
          some (s.setLoop p (.select (.poll t (i + 1) found expired)), [])
      | none =>
          if ready ≠ [] then some (s.setLoop p (.service 0 ready), [.selected p ready])
          -- `if (ret == 0) continue;`
          else if expired then some (s.setLoop p .start, [.selected p []])
          else some (s.setLoop p (.select (.schedule t)), [])
  | .schedule t =>
      if t.triggered then
        some (s.setLoop p (.select (.poll { t with triggered := false } 0 [] false)), [])
      else some (s.setLoop p (.select (.asleep t)), [])
  | .asleep _ => none

/-- The next statement of `main`. -/
def loopStep (argv : List File) (s : State Pid) (p : Pid) (r : Reply) :
    Loop → Option (State Pid × List (Event Pid))
  | .select w => selectStep argv s p r w
  | .service i ready =>
      match argv[i]? with
      | none => some (s.setLoop p .start, [])
      | some f =>
          if i ∉ ready then some (s.setLoop p (.service (i + 1) ready), [])
          else match f with
            | .device =>
                some ({ s with driver := s.driver.setProc p (.read lgBuffer .lock) }.setLoop p
                  (.reading i ready), [])
            | .other =>
                some (s.setLoop p (.service (i + 1) ready),
                  (r.text.map fun buffer => Event.printed p i (cstring buffer)).toList)
  | .reading _ _ | .ended => none

/-- A process that runs `test-select` makes no other call of the driver and handles no interrupt. -/
def allowed (s : State Pid) : Timestamps.Act Pid → Bool
  | .tick | .run _ => true
  | .interrupt p | .read p _ | .signal p => (s.loop p).isNone

/-- The loops after a step of the driver's: a handler may wake those that are in `select`. -/
def wakeStep (s : State Pid) : Timestamps.Act Pid → Pid → Option Loop
  | .run p => if s.driver.proc p = .handlerWake then wakeAll s.loop else s.loop
  | _ => s.loop

/-- A read of `test-select` that has returned. -/
def resume (s : State Pid) : List (Timestamps.Event Pid) → State Pid × List (Event Pid)
  | [.returned p ret buffer] =>
      match s.loop p with
      | some (.reading i ready) =>
          (s.setLoop p (.service (i + 1) ready),
            .kernel (.returned p ret buffer) :: report p i ret buffer)
      | _ => (s, [.kernel (.returned p ret buffer)])
  | out => (s, out.map .kernel)

def step (abi : Abi) (argv : Pid → List File) (s : State Pid) :
    Act Pid → Option (State Pid × List (Event Pid))
  | .kernel a =>
      if allowed s a then
        (Program.exampleSelect.step abi s.driver a).map fun r => resume ⟨r.1, wakeStep s a⟩ r.2
      else none
  | .start p =>
      if s.loop p = none ∧ s.driver.proc p = .outside then some (s.setLoop p .start, []) else none
  | .run p r =>
      match s.loop p with
      | some l => loopStep (argv p) s p r l
      | none => none
  | .timeout p =>
      match s.loop p with
      | some (.select (.asleep t)) =>
          some (s.setLoop p (.select (.poll { t with triggered := false } 0 [] true)), [])
      | _ => none
  | .signal p =>
      match s.loop p with
      | some (.select _) => some (s.setLoop p .ended, [])
      | _ => none

def system (abi : Abi) (argv : Pid → List File) : System (State Pid) (Act Pid) (Event Pid) :=
  ⟨step abi argv⟩

def init (Pid : Type*) (array : Memory ℕ) (jiffies : ℕ) : State Pid :=
  ⟨Timestamps.init Pid array jiffies, fun _ => none⟩

/-! ### The steps of the driver -/

/-- Who executes an action. -/
def owner : Timestamps.Act Pid → Option Pid
  | .tick => none
  | .interrupt p | .read p _ | .run p | .signal p => some p

section Driver

open Timestamps (wakeUp setProc_of_ne setProc_self)

variable {abi : Abi} {s s' : Timestamps.State Pid} {a : Timestamps.Act Pid}
  {out : List (Timestamps.Event Pid)} {q : Pid}

/-- Only reads differ from `example-V-10`. -/
theorem step_eq (hread : ∀ p b pc, a = .run p → s.proc p ≠ .read b pc) :
    Program.exampleSelect.step abi s a = Timestamps.step .v10 abi s a := by
  cases a with
  | run p =>
    simp only [Program.step, Timestamps.step]
    cases hp : s.proc p with
    | read b pc => exact absurd hp (hread p b pc rfl)
    | _ => rfl
  | _ => rfl

/-- What a read does to the other processes. -/
theorem readStep_proc {p : Pid} {b : ReadArgs} {pc : Timestamps.ReadPc} (hq : q ≠ p)
    (hstep : Program.exampleSelect.readStep abi s p b pc = some (s', out)) :
    s'.proc q = s.proc q := by
  cases pc with
  | lock =>
    simp only [Program.readStep, Timestamps.readStep] at hstep
    split_ifs at hstep <;> cases hstep <;> exact setProc_of_ne hq ..
  | testNonblock =>
    simp only [Program.readStep, Timestamps.readStep] at hstep
    split_ifs at hstep <;> cases hstep <;> exact setProc_of_ne hq ..
  | wait w =>
    simp only [Program.readStep, Timestamps.readStep] at hstep
    split at hstep <;> cases hstep <;> exact setProc_of_ne hq ..
  | format value =>
    cases hstep
    exact setProc_of_ne hq ..

/-- A process is where it was, or it has been woken, unless the step is its own. -/
theorem proc_of_step (hq : owner a ≠ some q)
    (hstep : Program.exampleSelect.step abi s a = some (s', out)) :
    s'.proc q = s.proc q ∨ s'.proc q = wakeUp s.proc q := by
  cases a with
  | tick =>
    cases hstep
    exact .inl rfl
  | interrupt p | read p b =>
    have hqp : q ≠ p := fun h => hq (h ▸ rfl)
    simp only [Program.step, Timestamps.step] at hstep
    split at hstep
    · cases hstep
      exact .inl (setProc_of_ne hqp ..)
    · cases hstep
  | run p =>
    have hqp : q ≠ p := fun h => hq (h ▸ rfl)
    simp only [Program.step] at hstep
    split at hstep
    · cases hstep
    · split_ifs at hstep <;> cases hstep <;> exact .inl (setProc_of_ne hqp ..)
    · cases hstep
      exact .inr (setProc_of_ne hqp ..)
    · exact .inl (readStep_proc hqp hstep)
  | signal p =>
    have hqp : q ≠ p := fun h => hq (h ▸ rfl)
    simp only [Program.step, Timestamps.step] at hstep
    split at hstep
    · simp only [Timestamps.signalStep] at hstep
      split at hstep <;> cases hstep <;> exact .inl (setProc_of_ne hqp ..)
    · cases hstep

/-- A process that makes no call and handles no interrupt does not start to. -/
theorem outside_of_step (hq : s.proc q = .outside) (hinterrupt : a ≠ .interrupt q)
    (hread : ∀ b, a ≠ .read q b)
    (hstep : Program.exampleSelect.step abi s a = some (s', out)) : s'.proc q = .outside := by
  by_cases howner : owner a = some q
  · cases a with
    | tick => cases howner
    | interrupt p => exact absurd (by cases howner; rfl) hinterrupt
    | read p b => exact absurd (by cases howner; rfl) (hread b)
    | run p | signal p =>
      cases howner
      simp [Program.step, Timestamps.step, hq] at hstep
  · rcases proc_of_step howner hstep with hsame | hwoken
    · rw [hsame, hq]
    · rw [hwoken, wakeUp, hq]

/-- A call that has returned is over. -/
theorem outside_of_returned {p : Pid} {ret : ℤ} {buffer : List UInt8}
    (hstep : Program.exampleSelect.step abi s a = some (s', [.returned p ret buffer])) :
    s'.proc p = .outside := by
  have hmove := Timestamps.move_of_step hstep
  generalize hout : [Timestamps.Event.returned p ret buffer] = out at hmove
  cases hmove with
  | refuse hact hp hpc hret =>
    cases hout
    exact setProc_self ..
  | finish hp =>
    cases hout
    exact setProc_self ..
  | quiet | record | drop | remove => cases hout

end Driver

/-! ### The driver in such a run -/

/-- What the driver has done. -/
def driverLog (log : List (Event Pid)) : List (Timestamps.Event Pid) :=
  log.filterMap fun e => match e with
    | .kernel e => some e
    | _ => none

omit [DecidableEq Pid] in
@[simp] theorem driverLog_append (log log' : List (Event Pid)) :
    driverLog (log ++ log') = driverLog log ++ driverLog log' := List.filterMap_append

omit [DecidableEq Pid] in
theorem driverLog_map_kernel (out : List (Timestamps.Event Pid)) :
    driverLog (out.map .kernel) = out := by
  simp [driverLog, List.filterMap_map]

omit [DecidableEq Pid] in
@[simp] theorem driverLog_report (p : Pid) (i : ℕ) (ret : ℤ) (buffer : List UInt8) :
    driverLog (report p i ret buffer) = [] := by
  unfold report
  split_ifs <;> rfl

@[simp] theorem setLoop_driver (s : State Pid) (p : Pid) (l : Loop) :
    (s.setLoop p l).driver = s.driver := rfl

@[simp] theorem setLoop_self (s : State Pid) (p : Pid) (l : Loop) :
    (s.setLoop p l).loop p = some l := Function.update_self ..

theorem setLoop_of_ne {p q : Pid} (hq : q ≠ p) (s : State Pid) (l : Loop) :
    (s.setLoop p l).loop q = s.loop q := Function.update_of_ne hq ..

/-- What becomes of the driver's part and of the loops when a step of the driver's is over. -/
theorem resume_cases (s : State Pid) (out : List (Timestamps.Event Pid)) :
    resume s out = (s, out.map .kernel) ∨
      ∃ p ret buffer i ready, out = [.returned p ret buffer] ∧ s.loop p = some (.reading i ready) ∧
        resume s out = (s.setLoop p (.service (i + 1) ready),
          .kernel (.returned p ret buffer) :: report p i ret buffer) := by
  unfold resume
  split
  · rename_i p ret buffer
    split
    · rename_i i ready hloop
      exact .inr ⟨p, ret, buffer, i, ready, rfl, hloop, rfl⟩
    · exact .inl rfl
  · exact .inl rfl

/-- A step of the driver's. -/
theorem kernel_cases {abi : Abi} {argv : Pid → List File} {s s' : State Pid}
    {a : Timestamps.Act Pid} {out : List (Event Pid)}
    (hstep : step abi argv s (.kernel a) = some (s', out)) :
    ∃ d dout, allowed s a = true ∧ Program.exampleSelect.step abi s.driver a = some (d, dout) ∧
      resume ⟨d, wakeStep s a⟩ dout = (s', out) ∧ s'.driver = d ∧ driverLog out = dout := by
  simp only [step] at hstep
  split_ifs at hstep with hallowed
  obtain ⟨⟨d, dout⟩, hdriver, hresume⟩ := Option.map_eq_some_iff.1 hstep
  refine ⟨d, dout, hallowed, hdriver, hresume, ?_⟩
  rcases resume_cases ⟨d, wakeStep s a⟩ dout with hsame | ⟨p, ret, buffer, i, ready, rfl, -, hback⟩
  · rw [hsame] at hresume
    cases hresume
    exact ⟨rfl, driverLog_map_kernel dout⟩
  · rw [hback] at hresume
    cases hresume
    refine ⟨rfl, ?_⟩
    rw [← List.singleton_append, driverLog_append, driverLog_report]
    rfl

/-- What becomes of a loop in a step of the driver's. -/
theorem kernel_loop {abi : Abi} {argv : Pid → List File} {s s' : State Pid}
    {a : Timestamps.Act Pid} {out : List (Event Pid)}
    (hstep : step abi argv s (.kernel a) = some (s', out)) (q : Pid) :
    s'.loop q = wakeStep s a q ∨ ∃ i ready, s.loop q = some (.reading i ready) ∧
      s'.loop q = some (.service (i + 1) ready) ∧ s'.driver.proc q = .outside := by
  obtain ⟨d, dout, -, hdriver, hresume, hd, -⟩ := kernel_cases hstep
  rcases resume_cases ⟨d, wakeStep s a⟩ dout with hsame | ⟨p, ret, buffer, i, ready, rfl, hp, hback⟩
  · rw [hsame] at hresume
    cases hresume
    exact .inl rfl
  · rw [hback] at hresume
    cases hresume
    by_cases hq : q = p
    · subst hq
      refine .inr ⟨i, ready, ?_, setLoop_self .., outside_of_returned hdriver⟩
      simp only [wakeStep] at hp
      split at hp
      · split_ifs at hp
        · obtain ⟨l, hl, hwake⟩ := Option.map_eq_some_iff.1 hp
          cases l <;> simp only [Loop.wake] at hwake <;> cases hwake
          exact hl
        · exact hp
      · exact hp
    · exact .inl (setLoop_of_ne hq ..)

/-- A statement of `test-select` leaves the driver alone, or enters `example_read`. -/
theorem loopStep_cases {argv : List File} {s s' : State Pid} {p : Pid} {r : Reply} {l : Loop}
    {out : List (Event Pid)} (hstep : loopStep argv s p r l = some (s', out)) :
    driverLog out = [] ∧ ((∃ l', s' = s.setLoop p l') ∨
      ∃ i ready, argv[i]? = some .device ∧ i ∈ ready ∧ l = .service i ready ∧
        s' = { s with driver := s.driver.setProc p (.read lgBuffer .lock) }.setLoop p
          (.reading i ready)) := by
  cases l with
  | select w =>
    cases w with
    | poll t i ready expired =>
      simp only [loopStep, selectStep] at hstep
      split at hstep
      · split_ifs at hstep <;> cases hstep <;> exact ⟨rfl, .inl ⟨_, rfl⟩⟩
      · cases hstep
        exact ⟨rfl, .inl ⟨_, rfl⟩⟩
      · split_ifs at hstep <;> cases hstep <;> exact ⟨rfl, .inl ⟨_, rfl⟩⟩
    | schedule t =>
      simp only [loopStep, selectStep] at hstep
      split_ifs at hstep <;> cases hstep <;> exact ⟨rfl, .inl ⟨_, rfl⟩⟩
    | asleep t => cases hstep
  | service i ready =>
    simp only [loopStep] at hstep
    split at hstep
    · cases hstep
      exact ⟨rfl, .inl ⟨_, rfl⟩⟩
    · rename_i f hf
      split_ifs at hstep with hready
      · cases f with
        | device =>
          cases hstep
          exact ⟨rfl, .inr ⟨i, ready, hf, hready, rfl, rfl⟩⟩
        | other =>
          cases hstep
          refine ⟨?_, .inl ⟨_, rfl⟩⟩
          cases r.text <;> rfl
      · cases hstep
        exact ⟨rfl, .inl ⟨_, rfl⟩⟩
  | reading i ready => cases hstep
  | ended => cases hstep

/-- A process that runs `test-select` is in the driver only to read. -/
def Seated (s : State Pid) : Prop :=
  ∀ p l, s.loop p = some l → (∀ i ready, l ≠ .reading i ready) → s.driver.proc p = .outside

omit [DecidableEq Pid] in
/-- A wake-up leaves every process where it is, but for `select`. -/
theorem wakeStep_some {s : State Pid} {a : Timestamps.Act Pid} {q : Pid} {l : Loop}
    (h : wakeStep s a q = some l) : ∃ l₀, s.loop q = some l₀ ∧ (l = l₀ ∨ l = l₀.wake) := by
  unfold wakeStep at h
  split at h
  · split_ifs at h
    · obtain ⟨l₀, hl₀, rfl⟩ := Option.map_eq_some_iff.1 h
      exact ⟨l₀, hl₀, .inr rfl⟩
    · exact ⟨l, h, .inl rfl⟩
  · exact ⟨l, h, .inl rfl⟩

theorem Seated.setLoop {s : State Pid} (h : Seated s) {p : Pid} {l : Loop}
    (hp : s.driver.proc p = .outside) : Seated (s.setLoop p l) := by
  intro q l' hq hl'
  by_cases hqp : q = p
  · rw [hqp]
    exact hp
  · rw [setLoop_of_ne hqp] at hq
    exact h q l' hq hl'

theorem seated_step {abi : Abi} {argv : Pid → List File} {s s' : State Pid} {a : Act Pid}
    {out : List (Event Pid)} (h : Seated s) (hstep : step abi argv s a = some (s', out)) :
    Seated s' := by
  cases a with
  | kernel a =>
    intro q l hq hl
    rcases kernel_loop hstep q with hloop | ⟨i, ready, -, -, hback⟩
    · obtain ⟨d, dout, hallowed, hdriver, -, rfl, -⟩ := kernel_cases hstep
      rw [hloop] at hq
      obtain ⟨l₀, hl₀, hwoken⟩ := wakeStep_some hq
      have hreading : ∀ i ready, l₀ ≠ .reading i ready := by
        rintro i ready rfl
        rcases hwoken with rfl | rfl <;> exact hl i ready rfl
      refine outside_of_step (h q l₀ hl₀ hreading) ?_ ?_ hdriver
      · rintro rfl
        simp [allowed, hl₀] at hallowed
      · rintro b rfl
        simp [allowed, hl₀] at hallowed
    · exact hback
  | start p =>
    simp only [step] at hstep
    split_ifs at hstep with hp
    cases hstep
    exact h.setLoop hp.2
  | run p r =>
    simp only [step] at hstep
    split at hstep
    · rename_i l hl
      have hout : (∀ i ready, l ≠ .reading i ready) := by
        rintro i ready rfl
        cases hstep
      obtain ⟨-, ⟨l', rfl⟩ | ⟨i, ready, -, -, -, rfl⟩⟩ := loopStep_cases hstep
      · exact h.setLoop (h p l hl hout)
      · intro q l' hq hl'
        by_cases hqp : q = p
        · subst hqp
          rw [setLoop_self] at hq
          cases hq
          exact absurd rfl (hl' i ready)
        · rw [setLoop_of_ne hqp] at hq
          change (s.driver.setProc p _).proc q = _
          rw [Timestamps.setProc_of_ne hqp]
          exact h q l' hq hl'
    · cases hstep
  | timeout p =>
    simp only [step] at hstep
    split at hstep
    · rename_i t ht
      cases hstep
      exact h.setLoop (h p _ ht fun _ _ hl => by cases hl)
    · cases hstep
  | signal p =>
    simp only [step] at hstep
    split at hstep
    · rename_i w hw
      cases hstep
      exact h.setLoop (h p _ hw fun _ _ hl => by cases hl)
    · cases hstep

omit [DecidableEq Pid] in
theorem seated_init (array : Memory ℕ) (jiffies : ℕ) : Seated (init Pid array jiffies) := by
  intro p l hp
  cases hp

/-- Each step is one of the driver's with the same outputs, or none. -/
theorem driver_step {abi : Abi} {argv : Pid → List File} {s s' : State Pid} {a : Act Pid}
    {out : List (Event Pid)} (h : Seated s) (hstep : step abi argv s a = some (s', out)) :
    ∃ as, (Program.exampleSelect.system abi Pid).exec s.driver as =
      some (s'.driver, driverLog out) := by
  cases a with
  | kernel a =>
    obtain ⟨d, dout, -, hdriver, -, rfl, rfl⟩ := kernel_cases hstep
    exact ⟨[a], System.exec_cons.2 ⟨_, _, [], hdriver, rfl, (List.append_nil _).symm⟩⟩
  | start p =>
    simp only [step] at hstep
    split_ifs at hstep
    cases hstep
    exact ⟨[], rfl⟩
  | run p r =>
    simp only [step] at hstep
    split at hstep
    · rename_i l hl
      obtain ⟨hlog, ⟨l', rfl⟩ | ⟨i, ready, -, -, rfl, rfl⟩⟩ := loopStep_cases hstep
      · exact ⟨[], by rw [hlog]; rfl⟩
      · have hout : s.driver.proc p = .outside := h p _ hl fun _ _ hl => by cases hl
        refine ⟨[.read p lgBuffer], System.exec_cons.2 ⟨_, [], [], ?_, rfl, hlog⟩⟩
        simp only [Program.system, Program.step, Timestamps.step, hout]
        rfl
    · cases hstep
  | timeout p | signal p =>
    simp only [step] at hstep
    split at hstep
    · cases hstep
      exact ⟨[], rfl⟩
    · cases hstep

variable {abi : Abi} {argv : Pid → List File} {array : Memory ℕ} {jiffies : ℕ}
  {acts : List (Act Pid)} {s : State Pid} {log : List (Event Pid)}

/-- **The driver in such a run** makes a run of its own. -/
theorem driver_run (hrun : (system abi argv).exec (init Pid array jiffies) acts = some (s, log)) :
    Seated s ∧ ∃ as, (Program.exampleSelect.system abi Pid).exec (Timestamps.init Pid array jiffies)
      as = some (s.driver, driverLog log) := by
  refine System.exec_induction (I := fun s log => Seated s ∧
    ∃ as, (Program.exampleSelect.system abi Pid).exec (Timestamps.init Pid array jiffies) as =
      some (s.driver, driverLog log)) ?_ ⟨seated_init array jiffies, [], rfl⟩ hrun
  rintro s log a s' out ⟨hseated, as, has⟩ hstep
  obtain ⟨bs, hbs⟩ := driver_step hseated hstep
  exact ⟨seated_step hseated hstep, as ++ bs, by
    rw [driverLog_append]
    exact System.exec_append has hbs⟩

end IldDrivers.SelectLoop
