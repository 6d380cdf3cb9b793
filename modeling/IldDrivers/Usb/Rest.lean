import IldDrivers.Usb.Protocol

/-!
# Between the calls of the USB drivers

While the device stays plugged and no signal comes, the calls leave the driver as they found it: when
no process is inside a critical section of a direction, its mutex is free, its `busy` is 0 and its URB
is not in flight.

* `Settled`, `settled_step`: the invariant of such runs;
* `Settled.atRest`: the two directions when no process is inside a call.
-/

namespace IldDrivers.ExampleVII

variable {Pid : Type*}

/-- A direction that nobody uses. -/
structure Channel.AtRest (ch : Channel Pid) : Prop where
  free : ch.mtx = none
  idle : ch.busy = 0
  landed : ch.inFlight = false
  endpoint : ch.endpoint = .valid
  urb : ch.urb = .valid
  buffer : ch.buffer = .valid

/-- After the second wait. -/
def Pc.over : Pc → Bool
  | .checkStatus | .format | .unlock _ => true
  | _ => false

/-- On a way out that only a signal or an unplugged device opens. -/
def Pc.strays : Pc → Bool
  | .unlockNoDev | .clearBusy .signal _ => true
  | _ => false

/-- What a call at `pc` knows about `busy`. -/
def Knows (ch : Channel Pid) (pc : Pc) : Prop :=
  pc.strays = false ∧ (pc.over = true → ch.busy = 0)

theorem Pc.holds_of_over {pc : Pc} (h : pc.over = true) : pc.holds = true := by
  cases pc <;> first | rfl | cases h

theorem knows_of_not_holds {ch : Channel Pid} {pc : Pc} (h : pc.holds = false) : Knows ch pc := by
  refine ⟨?_, fun hover => absurd (h.symm.trans (Pc.holds_of_over hover)) Bool.false_ne_true⟩
  cases pc <;> first | rfl | cases h

/-- What a statement of a call that does not end with a signal leaves behind. -/
def Leaves (f f' : Frame Pid) : Prop :=
  Knows f'.ch f'.pc ∧
    (f.pc.holds = true → f'.pc.holds = false → f'.ch.mtx = none ∧ f'.ch.busy = 0)

/-- A statement between the lock and the unlock, not followed by the end of the second wait. -/
theorem leaves_of_within {f f' : Frame Pid} (hholds : f'.pc.holds = true)
    (hstrays : f'.pc.strays = false) (hover : f'.pc.over = false) : Leaves f f' :=
  ⟨⟨hstrays, fun h => absurd (hover.symm.trans h) Bool.false_ne_true⟩,
    fun _ h => absurd (h.symm.trans hholds) Bool.false_ne_true⟩

/-- A statement outside the critical section. -/
theorem leaves_of_outside {f f' : Frame Pid} (hpc : f.pc.holds = false)
    (hpc' : f'.pc.holds = false) : Leaves f f' :=
  ⟨knows_of_not_holds hpc', fun h => absurd (hpc.symm.trans h) Bool.false_ne_true⟩

/-- The end of the second wait, and the statements after it. -/
theorem leaves_of_idle {f f' : Frame Pid} (hbusy : f'.ch.busy = 0)
    (hstrays : f'.pc.strays = false) (hmtx : f'.pc.holds = true ∨ f'.ch.mtx = none) :
    Leaves f f' := by
  refine ⟨⟨hstrays, fun _ => hbusy⟩, fun _ hout => ⟨?_, hbusy⟩⟩
  rcases hmtx with hin | hfree
  · exact absurd (hout.symm.trans hin) Bool.false_ne_true
  · exact hfree

theorem leaves_of_runStep {S : Setup} {device : Ptr} {p : Pid} {c : Call} {f f' : Frame Pid}
    (hdevice : device = .valid) (hknows : Knows f.ch f.pc)
    (h : runStep S device p c f = some f') : Leaves f f' := by
  obtain ⟨ch, kBuffer, o, pc⟩ := f
  cases ran_of_runStep h with
  | refuses _ _ _ hpc _ hf' | prepares _ _ _ hpc _ hf' | begins _ _ hpc _ hf'
  | continues _ _ hpc _ hf' =>
    cases hpc
    subst hf'
    exact leaves_of_outside rfl rfl
  | noDevice _ hnull => cases hdevice.symm.trans hnull
  | unlocksNoDev hpc =>
    cases hpc
    cases hknows.1
  | locks hpc _ hf' | hasDevice hpc _ hf' | waitsBusy hpc _ hf' | passes hpc _ hf'
  | wakesBusy hpc _ hf' | fills hpc hf' | waitsDone hpc _ hf' | wakesDone hpc _ hf' =>
    cases hpc
    subst hf'
    exact leaves_of_within rfl rfl rfl
  | marks hpc hf' =>
    cases hpc
    subst hf'
    cases c <;> exact leaves_of_within rfl rfl rfl
  | stores i hpc hf' =>
    cases hpc
    subst hf'
    by_cases hi : i = 7
    · exact leaves_of_within (by simp [hi, Pc.holds]) (by simp [hi, Pc.strays])
        (by simp [hi, Pc.over])
    · exact leaves_of_within (by simp [hi, Pc.holds]) (by simp [hi, Pc.strays])
        (by simp [hi, Pc.over])
  -- the end of the second wait
  | done hpc hbusy hf' =>
    cases hpc
    subst hf'
    exact leaves_of_idle hbusy rfl (.inl rfl)
  | fails hpc _ hf' | formats hpc hf' =>
    cases hpc
    subst hf'
    exact leaves_of_idle (hknows.2 rfl) rfl (.inl rfl)
  | succeeds hpc _ hf' =>
    cases hpc
    subst hf'
    cases c <;> exact leaves_of_idle (hknows.2 rfl) rfl (.inl rfl)
  | clears _ _ hpc hf' =>
    cases hpc
    subst hf'
    exact leaves_of_idle rfl rfl (.inl rfl)
  | unlocks _ hpc hf' | unlocksText hpc hf' =>
    cases hpc
    subst hf'
    exact leaves_of_idle (hknows.2 rfl) rfl (.inr rfl)
  | measures a _ hpc hf' =>
    cases hpc
    subst hf'
    exact leaves_of_outside rfl (tailStep_outside S a (f := ⟨ch, kBuffer, o, .measure⟩) rfl _).1
  | copies a lg _ hpc hf' =>
    cases hpc
    subst hf'
    exact leaves_of_outside rfl (tailStep_outside S a (f := ⟨ch, kBuffer, o, .copyOut lg⟩) rfl _).1

theorem leaves_of_callStep {S : Setup} {device : Ptr} {p : Pid} {c : Call} {f f' : Frame Pid}
    {e : Event} (hdevice : device = .valid) (hsignal : e ≠ .signal) (hknows : Knows f.ch f.pc)
    (h : callStep S device p c f e = some f') : Leaves f f' := by
  obtain ⟨ch, kBuffer, o, pc⟩ := f
  by_cases he : e = .run
  · subst he
    exact leaves_of_runStep hdevice hknows h
  · cases waited_of_callStep h he with
    | refused _ _ hf' | submits _ _ hf' | timesBusy _ hf' | timesDone _ hf' =>
      subst hf'
      exact leaves_of_within rfl rfl rfl
    | leavesLock | leavesBusy | leavesDone => exact absurd rfl hsignal

/-- The invariant. -/
structure Settled (s : State Pid) : Prop where
  flying : Flying s
  device : s.device = .valid
  endpoint : ∀ d, (s.chan d).endpoint = .valid
  buffer : ∀ d, (s.chan d).buffer = .valid
  knows : ∀ p c o pc, s.proc p = .call c o pc → Knows (s.chan c.dir) pc
  rests : ∀ d, (∀ p, ¬ s.Inside d (.proc p)) → (s.chan d).mtx = none ∧ (s.chan d).busy = 0

/-- **When no process is inside a call, nobody uses the directions.** -/
theorem Settled.atRest {s : State Pid} (h : Settled s) (hinside : s.inside = ∅) (d : Direction) :
    (s.chan d).AtRest := by
  obtain ⟨hfree, hidle⟩ := h.rests d fun p ⟨c, o, pc, hp, _⟩ => by
    have hmem := h.flying.files.inside p c o pc hp
    rw [hinside] at hmem
    cases hmem
  refine ⟨hfree, hidle, ?_, h.endpoint d, h.flying.urb d, h.buffer d⟩
  by_contra hflight
  exact h.flying.busy d (by simpa using hflight) hidle

theorem settled_init (heap : Direction → Memory UInt8) : Settled (init Pid heap []) where
  flying := flying_init heap
  device := rfl
  endpoint _ := rfl
  buffer _ := rfl
  knows p c o pc h := by cases h
  rests _ _ := ⟨rfl, rfl⟩

theorem Settled.notAbandoned {s : State Pid} (h : Settled s) (act : Act Pid) :
    NotAbandoned s act := by
  intro p c o ret _ hp
  cases (h.knows p c o _ hp).1

/-- A statement outside the critical section does nothing to the direction. -/
theorem Statement.same {device : Ptr} {p : Pid} {e : Event} {f f' : Frame Pid}
    (h : Statement device p e f f') (hpc : f.pc.holds = false) (hpc' : f'.pc.holds = false) :
    f'.ch = f.ch := by
  cases h with
  | outside _ _ hch => exact hch
  | locks _ _ hlocked =>
    rw [hlocked] at hpc'
    cases hpc'
  | unlocks hin | goes hin => exact absurd (hpc.symm.trans hin) Bool.false_ne_true
  | marks hin | stores _ hin | submits _ hin | clears _ _ _ hin =>
    rw [hin] at hpc
    cases hpc

theorem Knows.congr {ch ch' : Channel Pid} {pc : Pc} (_ : ch'.inFlight = ch.inFlight)
    (hbusy : ch'.busy = ch.busy) (h : Knows ch pc) : Knows ch' pc :=
  ⟨h.1, fun hpc => hbusy.trans (h.2 hpc)⟩

section Update

variable [DecidableEq Pid]

/-- A process that is not inside a critical section moves to a place outside. -/
theorem Settled.move {s s' : State Pid} (h : Settled s) (hflying : Flying s') {p : Pid} {x : Proc}
    (hdevice : s'.device = s.device) (hchan : s'.chan = s.chan)
    (hproc : s'.proc = Function.update s.proc p x)
    (hold : ∀ c o pc, s.proc p = .call c o pc → pc.holds = false)
    (hnew : ∀ c o pc, x = .call c o pc → pc.holds = false) : Settled s' where
  flying := hflying
  device := hdevice.trans h.device
  endpoint := hchan ▸ h.endpoint
  buffer := hchan ▸ h.buffer
  knows q c o pc hq := by
    rw [hproc] at hq
    rw [hchan]
    rcases setProc_eq_call (s := s) hq with ⟨-, rfl⟩ | ⟨-, hq'⟩
    · exact knows_of_not_holds (hnew c o pc rfl)
    · exact h.knows q c o pc hq'
  rests d hout := by
    rw [hchan]
    refine h.rests d fun q ⟨c, o, pc, hq, hd, hpc⟩ => hout q ⟨c, o, pc, ?_, hd, hpc⟩
    have hne : q ≠ p := by
      rintro rfl
      exact Bool.false_ne_true ((hold c o pc hq).symm.trans hpc)
    rw [hproc, Function.update_of_ne hne]
    exact hq

/-- Where nobody is inside after a statement of process `p`, nobody but `p` was inside before. -/
theorem not_inside_before {s : State Pid} {p : Pid} {c : Call} {o : Fin 8 → ℤ} {pc : Pc}
    {f : Frame Pid} {d : Direction} (hp : s.proc p = .call c o pc)
    (hself : d = c.dir → pc.holds = false) (hout : ∀ q, ¬ (s.setFrame p c f).Inside d (.proc q))
    (q : Pid) : ¬ s.Inside d (.proc q) := by
  rintro ⟨c', o', pc', hq, hd, hin⟩
  by_cases hne : q = p
  · subst hne
    rw [hp] at hq
    cases hq
    exact Bool.false_ne_true ((hself hd.symm).symm.trans hin)
  · exact hout q ⟨c', o', pc', (setProc_of_ne hne _).trans hq, hd, hin⟩

/-- A statement of a call. -/
theorem Settled.call {S : Setup} {s : State Pid} (h : Settled s) {p : Pid} {c : Call}
    {o : Fin 8 → ℤ} {pc : Pc} {e : Event} {f : Frame Pid} (hp : s.proc p = .call c o pc)
    (hsignal : e ≠ .signal)
    (hf : callStep S s.device p c ⟨s.chan c.dir, s.kBuffer, o, pc⟩ e = some f)
    (hflying : Flying (s.setFrame p c f)) : Settled (s.setFrame p c f) := by
  have hst := statement_of_callStep hf
  obtain ⟨hknows, hleaves⟩ := leaves_of_callStep h.device hsignal (h.knows p c o pc hp) hf
  refine ⟨hflying, h.device, fun d => ?_, fun d => ?_, fun q c' o' pc' hq => ?_, fun d hout => ?_⟩
  · exact setChan_keeps (P := fun _ ch => ch.endpoint = .valid)
      (fun hendpoint => hst.pointers.1.trans hendpoint) (h.endpoint d)
  · exact setChan_keeps (P := fun _ ch => ch.buffer = .valid)
      (fun hbuffer => hst.pointers.2.2.trans hbuffer) (h.buffer d)
  · change Knows ((s.setChan c.dir f.ch).chan c'.dir) pc'
    rcases setProc_eq_call hq with ⟨-, heq⟩ | ⟨hne, hold⟩
    · cases heq
      rw [setChan_self]
      exact hknows
    · exact h.flying.locked.keeps_other knows_of_not_holds Knows.congr hp hst hne hold
        (h.knows q c' o' pc' hold)
  · change ((s.setChan c.dir f.ch).chan d).mtx = none ∧ ((s.setChan c.dir f.ch).chan d).busy = 0
    by_cases hd : d = c.dir
    · subst hd
      rw [setChan_self]
      have hpc' : f.pc.holds = false := by
        by_contra hin
        exact hout p ⟨c, f.o, f.pc, setProc_self _ _ _, rfl, by simpa using hin⟩
      -- `p` has left, or nobody was inside before
      by_cases hpc : pc.holds = true
      · exact hleaves hpc hpc'
      · rw [hst.same (by simpa using hpc) hpc']
        exact h.rests c.dir (not_inside_before hp (fun _ => by simpa using hpc) hout)
    · rw [setChan_of_ne hd]
      exact h.rests d (not_inside_before hp (fun heq => absurd heq hd) hout)

/-- `example_release` leaves the output direction idle; nobody is inside a call. -/
theorem Settled.quit {s : State Pid} (h : Settled s) {p : Pid} {pc x : ReleasePc}
    {ch : Channel Pid} (hp : s.proc p = .release pc) (hpc : pc.counts = true)
    (hflying : Flying ((s.setChan .output ch).setProc p (.release x)))
    (hmtx : ch.mtx = (s.chan .output).mtx) (hendpoint : ch.endpoint = (s.chan .output).endpoint)
    (hbuffer : ch.buffer = (s.chan .output).buffer)
    (hbusy : ch.busy = 0 ∨ ch.busy = (s.chan .output).busy) :
    Settled ((s.setChan .output ch).setProc p (.release x)) := by
  have hnobody : ∀ d q, ¬ s.Inside d (.proc q) := fun d q ⟨c, o, pc', hq, _⟩ =>
    h.flying.files.no_call hp hpc hq
  refine ⟨hflying, h.device, fun d => ?_, fun d => ?_, fun q c o pc' hq => ?_, fun d _ => ?_⟩
  · cases d with
    | output => exact hendpoint.trans (h.endpoint .output)
    | input => exact h.endpoint .input
  · cases d with
    | output => exact hbuffer.trans (h.buffer .output)
    | input => exact h.buffer .input
  · rcases setProc_eq_call hq with ⟨-, heq⟩ | ⟨-, hold⟩
    · cases heq
    · exact absurd hold (h.flying.files.no_call hp hpc)
  · have hrest := h.rests d (hnobody d)
    cases d with
    | output =>
      refine ⟨hmtx.trans hrest.1, ?_⟩
      rcases hbusy with hbusy | hbusy
      · exact hbusy
      · exact hbusy.trans hrest.2
    | input => exact hrest

/-- A statement of `example_release`. -/
theorem Settled.release {s s' : State Pid} (h : Settled s) (hflying : Flying s') {p : Pid}
    {pc : ReleasePc} (hp : s.proc p = .release pc) (hst : ReleaseStatement s p pc s') :
    Settled s' := by
  have hout : ∀ c o pc', s.proc p = .call c o pc' → pc'.holds = false := fun c o pc' hcall => by
    rw [hp] at hcall
    cases hcall
  cases hst with
  | givesUp _ hs' | decrements _ hs' | unlocks _ hs' | locks _ _ _ _ hs' | looks _ _ _ _ hs' =>
    subst hs'
    exact h.move hflying rfl rfl rfl hout fun _ _ _ heq => nomatch heq
  | kills ch hpc _ hch hs' =>
    subst hpc hs'
    rcases hch with ⟨rfl, -⟩ | rfl
    · exact h.quit hp rfl hflying rfl rfl rfl (.inr rfl)
    · exact h.quit hp rfl hflying rfl rfl rfl (.inl rfl)
  | clears hpc hs' =>
    subst hpc hs'
    exact h.quit hp rfl hflying rfl rfl rfl (.inl rfl)

/-- A step of process `p` inside a call: a statement, or the return. -/
theorem callStep_of_step {S : Setup} {s s' : State Pid} {p : Pid} {e : Event} {c : Call}
    {o : Fin 8 → ℤ} {pc : Pc} {out : List (Output Pid)} (hp : s.proc p = .call c o pc)
    (h : step S s (.proc p e) = some (s', out)) :
    (∃ f, callStep S s.device p c ⟨s.chan c.dir, s.kBuffer, o, pc⟩ e = some f ∧
      s' = s.setFrame p c f ∧ out = []) ∨
    ∃ ret user advance, pc = .ret ret user advance ∧ (s', out) = leave s p ret user advance := by
  cases fired_of_step h with
  | calls _ c' o' pc' _ f hp' hcall =>
    cases hp'.symm.trans hp
    exact .inl ⟨f, hcall, rfl, rfl⟩
  | returns _ c' o' ret user advance hp' =>
    cases hp'.symm.trans hp
    exact .inr ⟨ret, user, advance, rfl, rfl⟩
  | releases _ _ _ _ hp' => cases hp'.symm.trans hp
  | released _ _ hp' => cases hp'.symm.trans hp

/-- A step that is not a signal. -/
theorem settled_step {S : Setup} {s s' : State Pid} {act : Act Pid} {out : List (Output Pid)}
    (h : Settled s) (hsignal : ∀ p, act ≠ .proc p .signal)
    (hstep : step S s act = some (s', out)) : Settled s' := by
  have hflying := flying_step h.flying (h.notAbandoned act) hstep
  cases stepped_of_step hstep with
  | stays hs' => exact hs' ▸ h
  | opens hmtx hcount hs' =>
    subst hs'
    exact ⟨hflying, h.device, h.endpoint, h.buffer, h.knows, h.rests⟩
  | starts p c hp hopen hs' =>
    subst hs'
    exact h.move hflying rfl rfl rfl (fun _ _ _ hcall => by rw [hp] at hcall; cases hcall)
      fun _ _ _ heq => by cases heq; rfl
  | startsRelease p hp hopen hin hs' =>
    subst hs'
    exact h.move hflying rfl rfl rfl (x := .release .lock)
      (fun _ _ _ hcall => by rw [hp] at hcall; cases hcall) fun _ _ _ heq => nomatch heq
  | calls p c o pc e f hact hp hst hs' =>
    subst hact
    rcases callStep_of_step hp hstep with ⟨f', hf', rfl, -⟩ | ⟨ret, user, advance, rfl, hleave⟩
    · exact h.call hp (fun he => hsignal p (by rw [he])) hf' hflying
    · obtain ⟨rfl, -⟩ := Prod.mk.inj hleave
      exact h.move hflying rfl rfl rfl (x := .user)
        (fun _ _ _ hcall => by rw [hp] at hcall; cases hcall; rfl) fun _ _ _ heq => nomatch heq
  | returns p c o ret user advance hp hs' =>
    subst hs'
    exact h.move hflying rfl rfl rfl (x := .user)
      (fun _ _ _ hcall => by rw [hp] at hcall; cases hcall; rfl) fun _ _ _ heq => nomatch heq
  | releases p pc hp hst => exact h.release hflying hp hst
  | released p ret hp hs' =>
    subst hs'
    exact h.move hflying rfl rfl rfl (x := .user)
      (fun _ _ _ hcall => by rw [hp] at hcall; cases hcall) fun _ _ _ heq => nomatch heq
  | completes d status bytes hflight hs' =>
    subst hs'
    refine ⟨hflying, h.device,
      fun d' => setChan_keeps (P := fun _ ch => ch.endpoint = .valid) (fun hv => hv) (h.endpoint d'),
      fun d' => setChan_keeps (P := fun _ ch => ch.buffer = .valid) (fun hv => hv) (h.buffer d'),
      fun p c o pc hp => ?_, fun d' hout => ?_⟩
    · exact setChan_keeps (P := fun _ ch => Knows ch pc) (fun hknows => ⟨hknows.1, fun _ => rfl⟩)
        (h.knows p c o pc hp)
    · exact setChan_keeps (P := fun _ ch => ch.mtx = none ∧ ch.busy = 0)
        (fun hfree => ⟨hfree.1, rfl⟩) (h.rests d' hout)
  | unplugs stmt rest t hact hplan hstmt hs' =>
    -- the device stays plugged
    rw [h.flying.plugged] at hplan
    cases hplan

/-- A run without signals. -/
theorem settled_exec {S : Setup} {s s' : State Pid} {acts : List (Act Pid)}
    {log : List (Output Pid)} (h : Settled s) (hsignal : ∀ p, .proc p .signal ∉ acts)
    (hrun : (system S Pid).exec s acts = some (s', log)) : Settled s' := by
  have hacts : ∀ a ∈ acts, ∀ p, a ≠ .proc p .signal := fun a ha p heq => hsignal p (heq ▸ ha)
  exact System.exec_induction_along (I := fun s _ => Settled s)
    (fun _ _ _ _ _ hs ha hstep => settled_step hs ha hstep) h
    (System.along_of_forall (S := system S Pid) hacts s) hrun

end Update

end IldDrivers.ExampleVII
