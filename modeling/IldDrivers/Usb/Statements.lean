import IldDrivers.Usb.Driver
import Mathlib.Tactic

/-!
# The statements of the USB drivers, one by one

* `Ran`, `ran_of_runStep`: the statements of a call, in the order of the source;
* `Statement`, `statement_of_callStep`: what a statement of a call does to its direction and where it
  leads, in eight cases;
* `ReleaseStatement`, `UnplugStatement`: the same for `example_release` and `example_disconnect`;
* `Fired`, `fired_of_step`: what a step of the machine does, action by action;
* `Stepped`, `stepped_of_step`: the same, as far as most invariants need it.

Everything that follows about runs is proved by cases on these.
-/

namespace IldDrivers.ExampleVII

variable {Pid : Type*}

/-! ### What a statement does -/

/-- Between the lock and the unlock, the unlock not yet executed. -/
def Pc.holds : Pc → Bool
  | .enter | .lock | .measure | .copyOut _ | .ret _ _ _ => false
  | _ => true

/-- At a statement where the URB is known not to be in flight: between the loop on `busy` and the
submission, on the way out after a failed submission, or after the end of the transfer. -/
def Pc.quiet : Pc → Bool
  | .setBusy | .store _ | .fill | .submit | .checkStatus | .clearBusy .submit _
  | .clearBusy .status _ | .format => true
  | _ => false

/-- At a statement that changes the buffer, fills the URB or submits it. -/
def Pc.touchesUrb : Pc → Bool
  | .store _ | .fill | .submit => true
  | _ => false

/-- After the test of the device, until the mutex is released. -/
def Pc.past (pc : Pc) : Bool :=
  pc.holds && pc != .testDevice && pc != .unlockNoDev

/-- Where `example_usb_device` is still to be used: after its test, up to `usb_fill_int_urb`. -/
def Pc.usesDevice : Pc → Bool
  | .busyTest | .busyWait | .setBusy | .store _ | .fill => true
  | _ => false

/-- A statement of process `p`: what it does to the direction, and where it leads. -/
inductive Statement (device : Ptr) (p : Pid) (e : Event) (f f' : Frame Pid) : Prop
  | outside (hpc : f.pc.holds = false) (hpc' : f'.pc.holds = false) (hch : f'.ch = f.ch)
  | locks (hpc : f.pc = .lock) (hfree : f.ch.mtx = none) (hpc' : f'.pc = .testDevice)
      (hch : f'.ch = { f.ch with mtx := some (.proc p) })
  | unlocks (hpc : f.pc.holds = true) (hpc' : f'.pc.holds = false)
      (hch : f'.ch = { f.ch with mtx := none })
  /-- Tests and waits. -/
  | goes (hpc : f.pc.holds = true) (hpc' : f'.pc.holds = true) (hch : f'.ch = f.ch)
      (hquiet : f'.pc.quiet = true → f.pc.quiet = true ∨ f.ch.busy = 0)
      (htouch : f'.pc.touchesUrb = true → f.pc.touchesUrb = true)
      (hpast : f'.pc.past = true → f.pc.past = true ∨ f.pc = .testDevice ∧ device ≠ .null)
      (huses : f'.pc.usesDevice = true →
        f.pc.usesDevice = true ∨ f.pc = .testDevice ∧ device ≠ .null)
  /-- `busy = 1`. -/
  | marks (hpc : f.pc = .setBusy) (hpc' : f'.pc = .store 0 ∨ f'.pc = .fill)
      (hch : f'.ch = { f.ch with busy := 1 })
  /-- A byte of the buffer. -/
  | stores (i : Fin 8) (hpc : f.pc = .store i) (hpc' : f'.pc = .fill ∨ ∃ j, f'.pc = .store j)
      (hch : ∃ bytes, f'.ch = { f.ch with bytes })
  | submits (he : e = .submit 0) (hpc : f.pc = .submit) (hidle : f.ch.inFlight = false)
      (hpc' : f'.pc = .doneTest) (hch : f'.ch = { f.ch with inFlight := true })
  /-- `busy = 0`. -/
  | clears (site : Site) (ret : ℤ) (he : e = .run) (hpc : f.pc = .clearBusy site ret)
      (hpc' : f'.pc = .unlock (some ret)) (hch : f'.ch = { f.ch with busy := 0 })

/-- The next statement of a call, with the frame it leads to. -/
inductive Ran (S : Setup) (device : Ptr) (p : Pid) (c : Call) (f f' : Frame Pid) : Prop
  | refuses (a : WriteArgs) (err : ℤ) (hc : c = .write a) (hpc : f.pc = .enter)
      (hprepare : prepare S a = some (.error err)) (hf' : f' = f.goto (.ret err [] 0))
  | prepares (a : WriteArgs) (o : Fin 8 → ℤ) (hc : c = .write a) (hpc : f.pc = .enter)
      (hprepare : prepare S a = some (.ok o)) (hf' : f' = { f with o, pc := .lock })
  | begins (a : ReadArgs) (hc : c = .read a) (hpc : f.pc = .enter) (hoffset : a.offset = 0)
      (hf' : f' = f.goto .lock)
  | continues (a : ReadArgs) (hc : c = .read a) (hpc : f.pc = .enter) (hoffset : a.offset ≠ 0)
      (hf' : f' = f.goto .measure)
  | locks (hpc : f.pc = .lock) (hfree : f.ch.mtx = none)
      (hf' : f' = { f with ch := { f.ch with mtx := some (.proc p) }, pc := .testDevice })
  | noDevice (hpc : f.pc = .testDevice) (hnull : device = .null) (hf' : f' = f.goto .unlockNoDev)
  | hasDevice (hpc : f.pc = .testDevice) (hnull : device ≠ .null) (hf' : f' = f.goto .busyTest)
  | unlocksNoDev (hpc : f.pc = .unlockNoDev)
      (hf' : f' = { f with ch := { f.ch with mtx := none }, pc := .ret (-eNoDev) [] 0 })
  | waitsBusy (hpc : f.pc = .busyTest) (hbusy : f.ch.busy ≠ 0) (hf' : f' = f.goto .busyWait)
  | passes (hpc : f.pc = .busyTest) (hbusy : f.ch.busy = 0) (hf' : f' = f.goto .setBusy)
  | wakesBusy (hpc : f.pc = .busyWait) (hbusy : f.ch.busy = 0) (hf' : f' = f.goto .busyTest)
  | marks (hpc : f.pc = .setBusy)
      (hf' : f' = { f with ch := { f.ch with busy := 1 }, pc := c.afterSetBusy })
  | stores (i : Fin 8) (hpc : f.pc = .store i)
      (hf' : f' = { f with
        ch := { f.ch with bytes := f.ch.bytes.store i [lowByte (f.o i)] }
        pc := if i = 7 then .fill else .store (i + 1) })
  | fills (hpc : f.pc = .fill) (hf' : f' = f.goto .submit)
  | waitsDone (hpc : f.pc = .doneTest) (hbusy : f.ch.busy ≠ 0) (hf' : f' = f.goto .doneWait)
  | done (hpc : f.pc = .doneTest) (hbusy : f.ch.busy = 0) (hf' : f' = f.goto .checkStatus)
  | wakesDone (hpc : f.pc = .doneWait) (hbusy : f.ch.busy = 0) (hf' : f' = f.goto .doneTest)
  | fails (hpc : f.pc = .checkStatus) (hstatus : f.ch.status ≠ 0)
      (hf' : f' = f.goto (.clearBusy .status c.statusError))
  | succeeds (hpc : f.pc = .checkStatus) (hstatus : f.ch.status = 0) (hf' : f' = f.goto c.afterStatus)
  | clears (site : Site) (ret : ℤ) (hpc : f.pc = .clearBusy site ret)
      (hf' : f' = { f with ch := { f.ch with busy := 0 }, pc := .unlock (some ret) })
  | formats (hpc : f.pc = .format)
      (hf' : f' = { f with
        kBuffer := f.kBuffer.store 0 ((formatBytes f.ch.bytes).take 63 ++ [0])
        pc := .unlock none })
  | unlocks (ret : ℤ) (hpc : f.pc = .unlock (some ret))
      (hf' : f' = { f with ch := { f.ch with mtx := none }, pc := .ret ret [] 0 })
  | unlocksText (hpc : f.pc = .unlock none)
      (hf' : f' = { f with ch := { f.ch with mtx := none }, pc := .measure })
  | measures (a : ReadArgs) (hc : c = .read a) (hpc : f.pc = .measure)
      (hf' : f' = tailStep S a f .measure)
  | copies (a : ReadArgs) (lg : ℕ) (hc : c = .read a) (hpc : f.pc = .copyOut lg)
      (hf' : f' = tailStep S a f (.copyOut lg))

theorem ran_of_runStep {S : Setup} {device : Ptr} {p : Pid} {c : Call} {f f' : Frame Pid}
    (h : runStep S device p c f = some f') : Ran S device p c f f' := by
  -- in the order of the source
  obtain ⟨ch, kBuffer, o, pc⟩ := f
  cases pc with
  | enter =>
    cases c with
    | write a =>
      obtain ⟨r, hr, rfl⟩ := Option.map_eq_some_iff.1 h
      cases r with
      | error err => exact .refuses a err rfl rfl hr rfl
      | ok o => exact .prepares a o rfl rfl hr rfl
    | read a =>
      cases h
      by_cases hoffset : a.offset = 0
      · exact .begins a rfl rfl hoffset (by rw [if_pos hoffset])
      · exact .continues a rfl rfl hoffset (by rw [if_neg hoffset])
  | lock =>
    simp only [runStep, Option.ite_none_right_eq_some, Option.some.injEq] at h
    obtain ⟨hfree, rfl⟩ := h
    exact .locks rfl (Option.isNone_iff_eq_none.1 hfree) rfl
  | testDevice =>
    cases h
    by_cases hnull : device = .null
    · exact .noDevice rfl hnull (by rw [if_pos hnull])
    · exact .hasDevice rfl hnull (by rw [if_neg hnull])
  | unlockNoDev =>
    cases h
    exact .unlocksNoDev rfl rfl
  | busyTest =>
    cases h
    by_cases hbusy : ch.busy = 0
    · exact .passes rfl hbusy (by rw [if_neg (not_not.2 hbusy)])
    · exact .waitsBusy rfl hbusy (by rw [if_pos hbusy])
  | busyWait =>
    simp only [runStep, Option.ite_none_right_eq_some, Option.some.injEq] at h
    obtain ⟨hbusy, rfl⟩ := h
    exact .wakesBusy rfl hbusy rfl
  | setBusy =>
    cases h
    exact .marks rfl rfl
  | store i =>
    simp only [runStep, Option.ite_none_right_eq_some, Option.some.injEq] at h
    obtain ⟨-, rfl⟩ := h
    exact .stores i rfl rfl
  | fill =>
    simp only [runStep, Option.ite_none_right_eq_some, Option.some.injEq] at h
    obtain ⟨-, rfl⟩ := h
    exact .fills rfl rfl
  | submit => cases h
  | doneTest =>
    cases h
    by_cases hbusy : ch.busy = 0
    · exact .done rfl hbusy (by rw [if_neg (not_not.2 hbusy)])
    · exact .waitsDone rfl hbusy (by rw [if_pos hbusy])
  | doneWait =>
    simp only [runStep, Option.ite_none_right_eq_some, Option.some.injEq] at h
    obtain ⟨hbusy, rfl⟩ := h
    exact .wakesDone rfl hbusy rfl
  | checkStatus =>
    simp only [runStep, Option.ite_none_right_eq_some, Option.some.injEq] at h
    obtain ⟨-, rfl⟩ := h
    by_cases hstatus : ch.status = 0
    · exact .succeeds rfl hstatus (by rw [if_neg (not_not.2 hstatus)])
    · exact .fails rfl hstatus (by rw [if_pos hstatus])
  | clearBusy site ret =>
    cases h
    exact .clears site ret rfl rfl
  | format =>
    simp only [runStep, Option.ite_none_right_eq_some, Option.some.injEq] at h
    obtain ⟨-, rfl⟩ := h
    exact .formats rfl rfl
  | unlock ret =>
    cases ret with
    | none =>
      cases h
      exact .unlocksText rfl rfl
    | some ret =>
      cases h
      exact .unlocks ret rfl rfl
  | measure =>
    cases c with
    | write a => cases h
    | read a =>
      cases h
      exact .measures a rfl rfl rfl
  | copyOut lg =>
    cases c with
    | write a => cases h
    | read a =>
      cases h
      exact .copies a lg rfl rfl rfl
  | ret => cases h

/-- After the mutex `example_read` does not come back to it. -/
theorem tailStep_outside (S : Setup) (a : ReadArgs) {f : Frame Pid} (h : f.pc.holds = false)
    (pc : Pc) : (tailStep S a f pc).pc.holds = false ∧ (tailStep S a f pc).ch = f.ch := by
  unfold tailStep
  split
  · dsimp only
    split_ifs <;> exact ⟨rfl, rfl⟩
  · dsimp only
    split_ifs <;> exact ⟨rfl, rfl⟩
  · exact ⟨h, rfl⟩

theorem statement_of_runStep {S : Setup} {device : Ptr} {p : Pid} {c : Call} {f f' : Frame Pid}
    (h : runStep S device p c f = some f') : Statement device p .run f f' := by
  obtain ⟨ch, kBuffer, o, pc⟩ := f
  cases ran_of_runStep h with
  | refuses _ _ _ hpc _ hf' | prepares _ _ _ hpc _ hf' | begins _ _ hpc _ hf'
  | continues _ _ hpc _ hf' =>
    cases hpc
    subst hf'
    exact .outside rfl rfl rfl
  | locks hpc hfree hf' =>
    cases hpc
    subst hf'
    exact .locks rfl hfree rfl rfl
  | unlocksNoDev hpc hf' | unlocks _ hpc hf' | unlocksText hpc hf' =>
    cases hpc
    subst hf'
    exact .unlocks rfl rfl rfl
  | noDevice hpc _ hf' =>
    cases hpc
    subst hf'
    exact .goes rfl rfl rfl nofun nofun nofun nofun
  | hasDevice hpc hnull hf' =>
    cases hpc
    subst hf'
    exact .goes rfl rfl rfl nofun nofun (fun _ => .inr ⟨rfl, hnull⟩) (fun _ => .inr ⟨rfl, hnull⟩)
  | passes hpc hbusy hf' =>
    cases hpc
    subst hf'
    exact .goes rfl rfl rfl (fun _ => .inr hbusy) nofun (fun _ => .inl rfl) (fun _ => .inl rfl)
  | waitsBusy hpc _ hf' | wakesBusy hpc _ hf' =>
    cases hpc
    subst hf'
    exact .goes rfl rfl rfl nofun nofun (fun _ => .inl rfl) (fun _ => .inl rfl)
  | marks hpc hf' =>
    cases hpc
    subst hf'
    refine .marks rfl ?_ rfl
    cases c with
    | write a => exact .inl rfl
    | read a => exact .inr rfl
  | stores i hpc hf' =>
    cases hpc
    subst hf'
    refine .stores i rfl ?_ ⟨_, rfl⟩
    by_cases hi : i = 7
    · exact .inl (if_pos hi)
    · exact .inr ⟨i + 1, if_neg hi⟩
  | fills hpc hf' =>
    cases hpc
    subst hf'
    exact .goes rfl rfl rfl (fun _ => .inl rfl) (fun _ => rfl) (fun _ => .inl rfl) nofun
  | done hpc hbusy hf' =>
    cases hpc
    subst hf'
    exact .goes rfl rfl rfl (fun _ => .inr hbusy) nofun (fun _ => .inl rfl) nofun
  | waitsDone hpc _ hf' | wakesDone hpc _ hf' | formats hpc hf' =>
    cases hpc
    subst hf'
    exact .goes rfl rfl rfl nofun nofun (fun _ => .inl rfl) nofun
  | fails hpc _ hf' =>
    cases hpc
    subst hf'
    exact .goes rfl rfl rfl (fun _ => .inl rfl) nofun (fun _ => .inl rfl) nofun
  | succeeds hpc _ hf' =>
    cases hpc
    subst hf'
    cases c with
    | write a => exact .goes rfl rfl rfl nofun nofun (fun _ => .inl rfl) nofun
    | read a => exact .goes rfl rfl rfl (fun _ => .inl rfl) nofun (fun _ => .inl rfl) nofun
  | clears site ret hpc hf' =>
    cases hpc
    subst hf'
    exact .clears site ret rfl rfl rfl rfl
  | measures a _ hpc hf' =>
    cases hpc
    subst hf'
    obtain ⟨hpc', hch⟩ := tailStep_outside S a (f := ⟨ch, kBuffer, o, .measure⟩) rfl .measure
    exact .outside rfl hpc' hch
  | copies a lg _ hpc hf' =>
    cases hpc
    subst hf'
    obtain ⟨hpc', hch⟩ := tailStep_outside S a (f := ⟨ch, kBuffer, o, .copyOut lg⟩) rfl (.copyOut lg)
    exact .outside rfl hpc' hch

/-- The submission of the URB, and what ends a wait from outside. -/
inductive Waited (f f' : Frame Pid) : Event → Prop
  | refused (err : ℤ) (hpc : f.pc = .submit) (hf' : f' = f.goto (.clearBusy .submit err)) :
      Waited f f' (.submit err)
  | submits (hpc : f.pc = .submit) (hidle : f.ch.inFlight = false)
      (hf' : f' = { f with ch := { f.ch with inFlight := true }, pc := .doneTest }) :
      Waited f f' (.submit 0)
  | leavesLock (hpc : f.pc = .lock) (hf' : f' = f.goto (.ret (-eRestartSys) [] 0)) :
      Waited f f' .signal
  | leavesBusy (hpc : f.pc = .busyWait) (hf' : f' = f.goto (.unlock (some (-eRestartSys)))) :
      Waited f f' .signal
  | leavesDone (hpc : f.pc = .doneWait) (hf' : f' = f.goto (.clearBusy .signal (-eRestartSys))) :
      Waited f f' .signal
  | timesBusy (hpc : f.pc = .busyWait) (hf' : f' = f.goto .busyTest) : Waited f f' .timeout
  | timesDone (hpc : f.pc = .doneWait) (hf' : f' = f.goto .doneTest) : Waited f f' .timeout

/-- An event of a call that is not its next statement. -/
theorem waited_of_callStep {S : Setup} {device : Ptr} {p : Pid} {c : Call} {f f' : Frame Pid}
    {e : Event} (h : callStep S device p c f e = some f') (he : e ≠ .run) : Waited f f' e := by
  obtain ⟨ch, kBuffer, o, pc⟩ := f
  cases e with
  | run => exact absurd rfl he
  | submit err =>
    simp only [callStep, submitStep] at h
    split at h
    · split_ifs at h with hurb herr hidle <;> cases h
      · exact .refused err rfl rfl
      · rw [not_not.1 herr]
        exact .submits rfl (Bool.not_eq_true _ ▸ hidle) rfl
    · cases h
  | signal =>
    simp only [callStep, signalStep] at h
    split at h
    · cases h
      exact .leavesLock rfl rfl
    · split_ifs at h
      cases h
      exact .leavesBusy rfl rfl
    · split_ifs at h
      cases h
      exact .leavesDone rfl rfl
    · cases h
  | timeout =>
    simp only [callStep, timeoutStep] at h
    split at h
    · cases h
      exact .timesBusy rfl rfl
    · cases h
      exact .timesDone rfl rfl
    · cases h

theorem statement_of_callStep {S : Setup} {device : Ptr} {p : Pid} {c : Call} {f f' : Frame Pid}
    {e : Event} (h : callStep S device p c f e = some f') : Statement device p e f f' := by
  by_cases he : e = .run
  · subst he
    exact statement_of_runStep h
  · obtain ⟨ch, kBuffer, o, pc⟩ := f
    cases waited_of_callStep h he with
    | refused err hpc hf' =>
      cases hpc
      subst hf'
      exact .goes rfl rfl rfl (fun _ => .inl rfl) nofun (fun _ => .inl rfl) nofun
    | submits hpc hidle hf' =>
      cases hpc
      subst hf'
      exact .submits rfl rfl hidle rfl rfl
    | leavesLock hpc hf' =>
      cases hpc
      subst hf'
      exact .outside rfl rfl rfl
    | timesBusy hpc hf' =>
      cases hpc
      subst hf'
      exact .goes rfl rfl rfl nofun nofun (fun _ => .inl rfl) (fun _ => .inl rfl)
    | leavesBusy hpc hf' | leavesDone hpc hf' | timesDone hpc hf' =>
      cases hpc
      subst hf'
      exact .goes rfl rfl rfl nofun nofun (fun _ => .inl rfl) nofun

/-- A statement does not move the pointers of its direction. -/
theorem Statement.pointers {device : Ptr} {p : Pid} {e : Event} {f f' : Frame Pid}
    (h : Statement device p e f f') :
    f'.ch.endpoint = f.ch.endpoint ∧ f'.ch.urb = f.ch.urb ∧ f'.ch.buffer = f.ch.buffer := by
  cases h with
  | stores i hpc hpc' hch =>
    obtain ⟨bytes, hch⟩ := hch
    rw [hch]
    exact ⟨rfl, rfl, rfl⟩
  | outside _ _ hch | locks _ _ _ hch | unlocks _ _ hch | goes _ _ hch | marks _ _ hch
  | submits _ _ _ _ hch | clears _ _ _ _ _ hch =>
    rw [hch]
    exact ⟨rfl, rfl, rfl⟩

/-- What a statement does to the mutex of its direction. -/
theorem Statement.mtx {device : Ptr} {p : Pid} {e : Event} {f f' : Frame Pid}
    (h : Statement device p e f f') :
    (f'.ch.mtx = f.ch.mtx ∧ (f'.pc.holds = true → f.pc.holds = true)) ∨
      (f.ch.mtx = none ∧ f'.ch.mtx = some (.proc p)) ∨
      (f.pc.holds = true ∧ f'.pc.holds = false) := by
  cases h with
  | outside hpc hpc' hch => exact .inl ⟨by rw [hch], fun hholds => by rw [hpc'] at hholds; cases hholds⟩
  | locks hpc hfree hpc' hch => exact .inr (.inl ⟨hfree, by rw [hch]⟩)
  | unlocks hpc hpc' hch => exact .inr (.inr ⟨hpc, hpc'⟩)
  | goes hpc hpc' hch => exact .inl ⟨by rw [hch], fun _ => hpc⟩
  | stores i hpc hpc' hch =>
    obtain ⟨bytes, hch⟩ := hch
    exact .inl ⟨by rw [hch], fun _ => by rw [hpc]; rfl⟩
  | marks hpc _ hch | submits _ hpc _ _ hch | clears _ _ _ hpc _ hch =>
    exact .inl ⟨by rw [hch], fun _ => by rw [hpc]; rfl⟩

theorem usbKillUrb_eq {s s' : State Pid} (h : usbKillUrb s = some s') :
    (s.chan .output).urb ≠ .dangling ∧ ∃ ch, s' = s.setChan .output ch ∧
      (ch = s.chan .output ∧ ((s.chan .output).urb = .valid → ch.inFlight = false) ∨
        ch = (s.chan .output).complete (-eNoEnt) (s.chan .output).bytes) := by
  have hsame : s = s.setChan .output (s.chan .output) := by
    rw [State.setChan, Function.update_eq_self]
  simp only [usbKillUrb] at h
  split at h
  · cases h
  · next hnull =>
    cases h
    exact ⟨by simp [hnull], s.chan .output, hsame, .inl ⟨rfl, by simp [hnull]⟩⟩
  · next hvalid =>
    refine ⟨by simp [hvalid], ?_⟩
    split_ifs at h with hflight
    · cases h
      exact ⟨_, rfl, .inr rfl⟩
    · cases h
      exact ⟨s.chan .output, hsame, .inl ⟨rfl, fun _ => Bool.not_eq_true _ ▸ hflight⟩⟩

/-- The direction whose pointers a statement changes. -/
def UnplugStmt.touches : UnplugStmt → Option Direction
  | .kfree d | .clearBuffer d | .freeUrb d | .clearUrb d | .clearEndpoint d => some d
  | _ => none

/-- What a statement of `example_disconnect` does. -/
inductive UnplugStatement (s : State Pid) (stmt : UnplugStmt) (t : State Pid) : Prop
  | deregisters (hstmt : stmt = .deregister) (ht : t = { s with registered := false })
  | clearsDevice (hstmt : stmt = .clearDevice) (ht : t = { s with device := .null })
  | locks (d : Direction) (hstmt : stmt = .lock d) (hfree : (s.chan d).mtx = none)
      (ht : t = s.setChan d { s.chan d with mtx := some .hub })
  | unlocks (d : Direction) (hstmt : stmt = .unlock d)
      (ht : t = s.setChan d { s.chan d with mtx := none })
  | touches (d : Direction) (ch : Channel Pid) (htouch : stmt.touches = some d)
      (hmtx : ch.mtx = (s.chan d).mtx) (hbusy : ch.busy = (s.chan d).busy)
      (hflight : ch.inFlight = (s.chan d).inFlight) (ht : t = s.setChan d ch)

theorem unplugStatement_of_unplugStep {s t : State Pid} {stmt : UnplugStmt}
    (h : unplugStep s stmt = some t) : UnplugStatement s stmt t := by
  cases stmt with
  | deregister => cases h; exact .deregisters rfl rfl
  | clearDevice => cases h; exact .clearsDevice rfl rfl
  | lock d =>
    simp only [unplugStep, Option.ite_none_right_eq_some, Option.some.injEq] at h
    obtain ⟨hfree, rfl⟩ := h
    exact .locks d rfl (Option.isNone_iff_eq_none.1 hfree) rfl
  | unlock d => cases h; exact .unlocks d rfl rfl
  | kfree d =>
    obtain ⟨ptr, -, rfl⟩ := Option.map_eq_some_iff.1 h
    exact .touches d { s.chan d with buffer := ptr } rfl rfl rfl rfl rfl
  | clearBuffer d =>
    cases h
    exact .touches d { s.chan d with buffer := .null } rfl rfl rfl rfl rfl
  | freeUrb d =>
    obtain ⟨ptr, -, rfl⟩ := Option.map_eq_some_iff.1 h
    exact .touches d { s.chan d with urb := ptr } rfl rfl rfl rfl rfl
  | clearUrb d =>
    cases h
    exact .touches d { s.chan d with urb := .null } rfl rfl rfl rfl rfl
  | clearEndpoint d =>
    cases h
    exact .touches d { s.chan d with endpoint := .null } rfl rfl rfl rfl rfl

/-- A statement of `example_release` that waits for the URB, kills it or gives up, or one of the
statements that open and close the critical section. -/
inductive ReleaseStatement [DecidableEq Pid] (s : State Pid) (p : Pid) (pc : ReleasePc)
    (s' : State Pid) : Prop
  | givesUp (hpc : pc = .lock) (hs' : s' = s.setProc p (.release (.ret (-eRestartSys))))
  | locks (pc' : ReleasePc) (hpc : pc = .lock) (hfree : s.mtx = none)
      (hpc' : pc' = .test ∨ pc' = .decrement)
      (hs' : s' = { s with mtx := some p }.setProc p (.release pc'))
  | looks (pc' : ReleasePc) (hpc : pc = .test ∨ pc = .wait ∨ pc = .testAgain)
      (hpc' : pc' = .wait ∨ pc' = .testAgain ∨ pc' = .kill ∨ pc' = .clearBusy)
      (hidle : pc' = .clearBusy → (s.chan .output).busy = 0)
      (hs' : s' = s.setProc p (.release pc'))
  | kills (ch : Channel Pid) (hpc : pc = .kill) (hurb : (s.chan .output).urb ≠ .dangling)
      (hch : ch = s.chan .output ∧ ((s.chan .output).urb = .valid → ch.inFlight = false) ∨
        ch = (s.chan .output).complete (-eNoEnt) (s.chan .output).bytes)
      (hs' : s' = (s.setChan .output ch).setProc p (.release .clearBusy))
  | clears (hpc : pc = .clearBusy)
      (hs' : s' = (s.setChan .output { s.chan .output with busy := 0 }).setProc p
        (.release .decrement))
  | decrements (hpc : pc = .decrement)
      (hs' : s' = { s with openCount := s.openCount - 1 }.setProc p (.release .unlock))
  | unlocks (hpc : pc = .unlock)
      (hs' : s' = { s with mtx := none }.setProc p (.release (.ret 0)))

section Update

variable [DecidableEq Pid]

theorem releaseStatement_of_releaseStep {v : Version} {s s' : State Pid} {p : Pid} {pc : ReleasePc}
    (h : releaseStep v s p pc = some s') : ReleaseStatement s p pc s' := by
  cases pc with
  | lock =>
    simp only [releaseStep, Option.ite_none_right_eq_some, Option.some.injEq] at h
    obtain ⟨hfree, rfl⟩ := h
    refine .locks _ rfl (Option.isNone_iff_eq_none.1 hfree) ?_ rfl
    cases v with
    | vii04 => exact .inl rfl
    | vii05 => exact .inr rfl
  | test =>
    cases h
    by_cases hbusy : (s.chan .output).busy = 0
    · exact .looks .testAgain (by simp) (by simp) nofun (by simp [hbusy])
    · exact .looks .wait (by simp) (by simp) nofun (by simp [hbusy])
  | wait =>
    simp only [releaseStep, Option.ite_none_right_eq_some, Option.some.injEq] at h
    obtain ⟨-, rfl⟩ := h
    exact .looks .testAgain (by simp) (by simp) nofun rfl
  | testAgain =>
    cases h
    by_cases hbusy : (s.chan .output).busy = 0
    · exact .looks .clearBusy (by simp) (by simp) (fun _ => hbusy) (by simp [hbusy])
    · exact .looks .kill (by simp) (by simp) nofun (by simp [hbusy])
  | kill =>
    obtain ⟨t, ht, rfl⟩ := Option.map_eq_some_iff.1 h
    obtain ⟨hurb, ch, rfl, hch⟩ := usbKillUrb_eq ht
    exact .kills ch rfl hurb hch rfl
  | clearBusy =>
    cases h
    exact .clears rfl rfl
  | decrement =>
    cases h
    exact .decrements rfl rfl
  | unlock =>
    cases h
    exact .unlocks rfl rfl
  | ret => cases h

theorem releaseStatement_of_releaseSignal {s s' : State Pid} {p : Pid} {pc : ReleasePc}
    (h : releaseSignal s p pc = some s') : ReleaseStatement s p pc s' := by
  unfold releaseSignal at h
  split at h
  · cases h
    exact .givesUp rfl rfl
  · cases h
    exact .looks .testAgain (by simp) (by simp) nofun rfl
  · cases h

/-- A step, action by action. -/
inductive Fired (S : Setup) (s : State Pid) : Act Pid → State Pid → List (Output Pid) → Prop
  /-- An `open` that fails. -/
  | refuses (p : Pid) (signal : Bool) (ret : ℤ) (hp : s.proc p = .user) :
      Fired S s (.openFile p signal) s [.returned p ret [] 0]
  | opens (p : Pid) (signal : Bool) (hp : s.proc p = .user) (hmtx : s.mtx = none)
      (hcount : s.openCount ≤ 0) :
      Fired S s (.openFile p signal) { s with openCount := s.openCount + 1, opened := s.opened + 1 }
        [.returned p 0 [] 0]
  | starts (p : Pid) (c : Call) (hp : s.proc p = .user) (hopen : 0 < s.opened) :
      Fired S s (.start p c)
        ({ s with inside := insert p s.inside }.setProc p (.call c (fun _ => 0) .enter)) []
  | startsRelease (p : Pid) (hp : s.proc p = .user) (hopen : 0 < s.opened) (hin : s.inside = ∅) :
      Fired S s (.startRelease p) ({ s with opened := s.opened - 1 }.setProc p (.release .lock)) []
  | calls (p : Pid) (c : Call) (o : Fin 8 → ℤ) (pc : Pc) (e : Event) (f : Frame Pid)
      (hp : s.proc p = .call c o pc)
      (hcall : callStep S s.device p c ⟨s.chan c.dir, s.kBuffer, o, pc⟩ e = some f) :
      Fired S s (.proc p e) (s.setFrame p c f) []
  | returns (p : Pid) (c : Call) (o : Fin 8 → ℤ) (ret : ℤ) (user : List UInt8) (advance : ℕ)
      (hp : s.proc p = .call c o (.ret ret user advance)) :
      Fired S s (.proc p .run) ({ s with inside := s.inside.erase p }.setProc p .user)
        [.returned p ret user advance]
  | releases (p : Pid) (pc : ReleasePc) (e : Event) (s' : State Pid) (hp : s.proc p = .release pc)
      (hst : ReleaseStatement s p pc s') : Fired S s (.proc p e) s' []
  | released (p : Pid) (ret : ℤ) (hp : s.proc p = .release (.ret ret)) :
      Fired S s (.proc p .run) (s.setProc p .user) [.returned p ret [] 0]
  | completes (d : Direction) (status : ℤ) (data : List UInt8) (bytes : Memory UInt8)
      (hbytes : bytes = match d with
        | .output => (s.chan d).bytes
        | .input => (s.chan d).bytes.store 0 data)
      (hflight : (s.chan d).inFlight = true) :
      Fired S s (.complete d status data) (s.setChan d ((s.chan d).complete status bytes)) []
  | unplugs (stmt : UnplugStmt) (rest : List UnplugStmt) (t : State Pid)
      (hplan : s.unplug = stmt :: rest) (hstmt : unplugStep s stmt = some t) :
      Fired S s .unplug { t with unplug := rest } []

theorem fired_of_step {S : Setup} {s s' : State Pid} {act : Act Pid} {out : List (Output Pid)}
    (h : step S s act = some (s', out)) : Fired S s act s' out := by
  cases act with
  | openFile p signal =>
    simp only [step] at h
    split at h
    · next hp =>
      split_ifs at h with hreg hsignal
      · cases h
        exact .refuses p signal _ hp
      · obtain ⟨r, hr, heq⟩ := Option.map_eq_some_iff.1 h
        cases heq
        unfold exampleOpen at hr
        split_ifs at hr with hmtx hcount hdevice <;> cases hr
        · exact .refuses p signal _ hp
        · exact .refuses p signal _ hp
        · exact .opens p signal hp (Option.not_isSome_iff_eq_none.1 hmtx) (not_lt.1 hcount)
    · cases h
  | start p c =>
    simp only [step] at h
    split at h
    · next hp =>
      split_ifs at h with hopen
      cases h
      exact .starts p c hp hopen.1
    · cases h
  | startRelease p =>
    simp only [step] at h
    split at h
    · next hp =>
      split_ifs at h with hopen
      cases h
      exact .startsRelease p hp hopen.1 hopen.2
    · cases h
  | proc p e =>
    simp only [step] at h
    split at h
    · cases h
    · next c o ret user advance hp =>
      cases e with
      | run =>
        cases h
        exact .returns p c o ret user advance hp
      | submit | signal | timeout => cases h
    · next c o pc hret hp =>
      obtain ⟨t, ht, heq⟩ := Option.map_eq_some_iff.1 h
      cases heq
      obtain ⟨f, hf, rfl⟩ := Option.map_eq_some_iff.1 ht
      exact .calls p c o pc e f hp hf
    · next ret hp =>
      cases e with
      | run =>
        cases h
        exact .released p ret hp
      | submit | signal | timeout => cases h
    · next pc hret hp =>
      cases e with
      | run =>
        obtain ⟨t, ht, heq⟩ := Option.map_eq_some_iff.1 h
        cases heq
        exact .releases p pc .run s' hp (releaseStatement_of_releaseStep ht)
      | submit => cases h
      | signal =>
        obtain ⟨t, ht, heq⟩ := Option.map_eq_some_iff.1 h
        cases heq
        exact .releases p pc .signal s' hp (releaseStatement_of_releaseSignal ht)
      | timeout =>
        simp only [Option.ite_none_right_eq_some, Option.some.injEq, Prod.mk.injEq] at h
        obtain ⟨rfl, rfl, rfl⟩ := h
        exact .releases p .wait .timeout _ hp (.looks .testAgain (by simp) (by simp) nofun rfl)
  | complete d status data =>
    simp only [step, Option.ite_none_right_eq_some, Option.some.injEq, Prod.mk.injEq] at h
    obtain ⟨hflight, rfl, rfl⟩ := h
    exact .completes d status data _ rfl hflight
  | unplug =>
    simp only [step] at h
    split at h
    · cases h
    · next stmt rest hplan =>
      obtain ⟨t, ht, heq⟩ := Option.map_eq_some_iff.1 h
      cases heq
      exact .unplugs stmt rest t hplan ht

/-- What a step does. -/
inductive Stepped (S : Setup) (s : State Pid) (act : Act Pid) (s' : State Pid) : Prop
  /-- An `open` that fails. -/
  | stays (hs' : s' = s)
  | opens (hmtx : s.mtx = none) (hcount : s.openCount ≤ 0)
      (hs' : s' = { s with openCount := s.openCount + 1, opened := s.opened + 1 })
  | starts (p : Pid) (c : Call) (hp : s.proc p = .user) (hopen : 0 < s.opened)
      (hs' : s' = { s with inside := insert p s.inside }.setProc p (.call c (fun _ => 0) .enter))
  | startsRelease (p : Pid) (hp : s.proc p = .user) (hopen : 0 < s.opened) (hin : s.inside = ∅)
      (hs' : s' = { s with opened := s.opened - 1 }.setProc p (.release .lock))
  | calls (p : Pid) (c : Call) (o : Fin 8 → ℤ) (pc : Pc) (e : Event) (f : Frame Pid)
      (hact : act = .proc p e) (hp : s.proc p = .call c o pc)
      (hst : Statement s.device p e ⟨s.chan c.dir, s.kBuffer, o, pc⟩ f)
      (hs' : s' = s.setFrame p c f)
  | returns (p : Pid) (c : Call) (o : Fin 8 → ℤ) (ret : ℤ) (user : List UInt8) (advance : ℕ)
      (hp : s.proc p = .call c o (.ret ret user advance))
      (hs' : s' = { s with inside := s.inside.erase p }.setProc p .user)
  | releases (p : Pid) (pc : ReleasePc) (hp : s.proc p = .release pc)
      (hst : ReleaseStatement s p pc s')
  | released (p : Pid) (ret : ℤ) (hp : s.proc p = .release (.ret ret))
      (hs' : s' = s.setProc p .user)
  | completes (d : Direction) (status : ℤ) (bytes : Memory UInt8)
      (hflight : (s.chan d).inFlight = true)
      (hs' : s' = s.setChan d ((s.chan d).complete status bytes))
  | unplugs (stmt : UnplugStmt) (rest : List UnplugStmt) (t : State Pid) (hact : act = .unplug)
      (hplan : s.unplug = stmt :: rest) (hstmt : unplugStep s stmt = some t)
      (hs' : s' = { t with unplug := rest })

theorem stepped_of_step {S : Setup} {s s' : State Pid} {act : Act Pid} {out : List (Output Pid)}
    (h : step S s act = some (s', out)) : Stepped S s act s' := by
  cases fired_of_step h with
  | refuses => exact .stays rfl
  | opens p signal hp hmtx hcount => exact .opens hmtx hcount rfl
  | starts p c hp hopen => exact .starts p c hp hopen rfl
  | startsRelease p hp hopen hin => exact .startsRelease p hp hopen hin rfl
  | calls p c o pc e f hp hcall => exact .calls p c o pc e f rfl hp (statement_of_callStep hcall) rfl
  | returns p c o ret user advance hp => exact .returns p c o ret user advance hp rfl
  | releases p pc e t hp hst => exact .releases p pc hp hst
  | released p ret hp => exact .released p ret hp rfl
  | completes d status data bytes hbytes hflight => exact .completes d status bytes hflight rfl
  | unplugs stmt rest t hplan hstmt => exact .unplugs stmt rest t rfl hplan hstmt rfl

end Update

end IldDrivers.ExampleVII
