import IldDrivers.Usb.Report

/-!
# The round trip of a report (`example-VII-05`)

A report of the board is read as a text, in as many parts as the reader likes, and the text is
written back.

* `Act.Quiet`: the steps while one process uses the driver, no signal comes and no transfer fails;
* `Reads`: successive reads through one file, until one returns 0;
* `Submits`: a call that hands bytes over to the board, whatever the order of its steps;
* `report_round_trip`: the bytes of the report are handed over.
-/

namespace IldDrivers.ExampleVII

variable {Pid : Type*}

/-- What happens while process `p` alone uses the driver, no signal comes and no transfer fails; the
board sends `report`. -/
def Act.Quiet (report : List UInt8) (p : Pid) : Act Pid → Prop
  | .proc q e => q = p ∧ (e = .run ∨ e = .submit 0 ∨ e = .timeout)
  | .complete d status data => status = 0 ∧ (d = .input → data = report)
  | _ => False

/-- Process `p` has the file open, and no call is under way. -/
structure Resting (p : Pid) (s : State Pid) : Prop where
  device : s.device = .valid
  opened : 0 < s.opened
  user : s.proc p = .user
  chan : ∀ d, (s.chan d).AtRest

theorem Settled.resting {s : State Pid} (h : Settled s) (hinside : s.inside = ∅)
    (hopened : 0 < s.opened) {p : Pid} (huser : s.proc p = .user) : Resting p s :=
  ⟨h.device, hopened, huser, h.atRest hinside⟩

/-- The frame of a call that begins in `s`. -/
def State.begins (s : State Pid) (c : Call) : Frame Pid :=
  ⟨s.chan c.dir, s.kBuffer, fun _ => 0, .enter⟩

/-- What a read finds when it begins. -/
def Call.Finds (report : List UInt8) (kBuffer : Memory UInt8) (c : Call) : Prop :=
  ∀ a, c = .read a → a.offset ≠ 0 → Printed report kBuffer

theorem stage_begins {report : List UInt8} {s : State Pid} {p : Pid} (h : Resting p s) {c : Call}
    (hfinds : c.Finds report s.kBuffer) : Stage report p c (s.begins c) :=
  ⟨h.chan c.dir, hfinds⟩

variable [DecidableEq Pid]

/-! ### The steps of one call -/

theorem setFrame_setFrame (s : State Pid) (p : Pid) (c : Call) (f f' : Frame Pid) :
    (s.setFrame p c f).setFrame p c f' = s.setFrame p c f' := by
  simp only [State.setFrame, State.setProc, Function.update_idem]

theorem setChan_setFrame (s : State Pid) (p : Pid) (c : Call) (f : Frame Pid) (ch : Channel Pid) :
    (s.setFrame p c f).setChan c.dir ch = s.setFrame p c { f with ch } := by
  simp only [State.setFrame, State.setProc, State.setChan, Function.update_idem]

theorem proc_setFrame (s : State Pid) (p : Pid) (c : Call) (f : Frame Pid) :
    (s.setFrame p c f).proc p = .call c f.o f.pc := Function.update_self ..

theorem chan_setFrame (s : State Pid) (p : Pid) (c : Call) (f : Frame Pid) :
    (s.setFrame p c f).chan c.dir = f.ch := Function.update_self ..

theorem chan_setFrame_of_ne {s : State Pid} {c : Call} {d : Direction} (h : d ≠ c.dir) (p : Pid)
    (f : Frame Pid) : (s.setFrame p c f).chan d = s.chan d := Function.update_of_ne h ..

/-- A statement of a call is a step. -/
theorem step_proc {S : Setup} {s : State Pid} {p : Pid} {c : Call} {o : Fin 8 → ℤ} {pc : Pc}
    {e : Event} {t : State Pid} (hp : s.proc p = .call c o pc)
    (h : procStep S s p c o pc e = some t) : step S s (.proc p e) = some (t, []) := by
  simp only [step, hp]
  cases pc with
  | ret ret user advance => cases e <;> cases h
  | _ =>
    dsimp only
    rw [h]
    rfl

/-- So is its return. -/
theorem step_ret {S : Setup} {s : State Pid} {p : Pid} {c : Call} {o : Fin 8 → ℤ} {ret : ℤ}
    {user : List UInt8} {advance : ℕ} (hp : s.proc p = .call c o (.ret ret user advance)) :
    step S s (.proc p .run) = some (leave s p ret user advance) := by
  simp only [step, hp]

theorem step_complete_iff {S : Setup} {s s' : State Pid} {d : Direction} {status : ℤ}
    {data : List UInt8} {out : List (Output Pid)} :
    step S s (.complete d status data) = some (s', out) ↔ (s.chan d).inFlight = true ∧
      s' = s.setChan d ((s.chan d).complete status ((s.chan d).arrived d data)) ∧ out = [] := by
  simp only [step, Option.ite_none_right_eq_some, Option.some.injEq, Prod.mk.injEq]
  refine and_congr_right fun _ => ⟨?_, ?_⟩
  · rintro ⟨rfl, rfl⟩
    exact ⟨rfl, rfl⟩
  · rintro ⟨rfl, rfl⟩
    exact ⟨rfl, rfl⟩

theorem step_of_callStep {S : Setup} {s : State Pid} {p : Pid} {c : Call} {f f' : Frame Pid}
    {e : Event} (h : callStep S s.device p c f e = some f') :
    step S (s.setFrame p c f) (.proc p e) = some (s.setFrame p c f', []) := by
  refine step_proc (proc_setFrame s p c f) ?_
  unfold procStep
  rw [chan_setFrame]
  change (callStep S s.device p c f e).map ((s.setFrame p c f).setFrame p c) = _
  rw [h, Option.map_some, setFrame_setFrame]

/-- Steps while process `p` is inside the call `c`. -/
theorem served_of_step {S : Setup} {report : List UInt8} {s s' : State Pid} {p : Pid} {c : Call}
    {f : Frame Pid} {act : Act Pid} {out : List (Output Pid)} (hrest : Resting p s)
    (hact : act.Quiet report p) (h : step S (s.setFrame p c f) act = some (s', out)) :
    (∃ f', Served S report p c f f' ∧ s' = s.setFrame p c f' ∧ out = []) ∨
      ∃ ret user advance, f.pc = .ret ret user advance ∧
        (s', out) = leave (s.setFrame p c f) p ret user advance := by
  cases act with
  | proc q e =>
    obtain ⟨rfl, he⟩ := hact
    rcases callStep_of_step (proc_setFrame s q c f) h with ⟨f', hf', rfl, rfl⟩ | hret
    · rw [chan_setFrame] at hf'
      change callStep S s.device q c f e = some f' at hf'
      rw [hrest.device] at hf'
      refine .inl ⟨f', ?_, setFrame_setFrame s q c f f', rfl⟩
      rcases he with rfl | rfl | rfl
      · exact .runs hf'
      · exact .submits hf'
      · exact .times hf'
    · exact .inr hret
  | complete d status data =>
    obtain ⟨rfl, hdata⟩ := hact
    obtain ⟨hflight, rfl, rfl⟩ := step_complete_iff.1 h
    left
    by_cases hd : d = c.dir
    · subst hd
      rw [chan_setFrame] at hflight
      refine ⟨_, .completes hflight rfl, ?_, rfl⟩
      rw [setChan_setFrame, chan_setFrame]
      cases c with
      | write a => rfl
      | read a =>
        rw [hdata rfl]
        rfl
    · rw [chan_setFrame_of_ne hd, (hrest.chan d).landed] at hflight
      cases hflight
  | openFile | start | startRelease | unplug => exact hact.elim

/-- A step of a call can be taken. -/
theorem step_of_served {S : Setup} {report : List UInt8} {s : State Pid} {p : Pid} {c : Call}
    {f f' : Frame Pid} (hdevice : s.device = .valid) (h : Served S report p c f f') :
    ∃ act : Act Pid, act.Quiet report p ∧
      step S (s.setFrame p c f) act = some (s.setFrame p c f', []) := by
  cases h with
  | runs hrun =>
    exact ⟨.proc p .run, ⟨rfl, .inl rfl⟩, step_of_callStep (by rw [hdevice]; exact hrun)⟩
  | submits hsubmit =>
    exact ⟨.proc p (.submit 0), ⟨rfl, .inr (.inl rfl)⟩, step_of_callStep hsubmit⟩
  | times htimeout =>
    exact ⟨.proc p .timeout, ⟨rfl, .inr (.inr rfl)⟩, step_of_callStep htimeout⟩
  | completes hflight hf' =>
    subst hf'
    refine ⟨.complete c.dir 0 report, ⟨rfl, fun _ => rfl⟩, ?_⟩
    rw [step_complete_iff, chan_setFrame, setChan_setFrame]
    exact ⟨hflight, rfl, rfl⟩

/-- After its return process `p` has the file open, and no call is under way. -/
theorem Resting.leave {s : State Pid} {p : Pid} (h : Resting p s) {c : Call} {f : Frame Pid}
    (hch : f.ch.AtRest) (ret : ℤ) (user : List UInt8) (advance : ℕ) :
    Resting p (leave (s.setFrame p c f) p ret user advance).1 where
  device := h.device
  opened := h.opened
  user := Function.update_self ..
  chan d := by
    change ((s.setFrame p c f).chan d).AtRest
    by_cases hd : d = c.dir
    · subst hd
      rw [chan_setFrame]
      exact hch
    · rw [chan_setFrame_of_ne hd]
      exact h.chan d

/-- Nothing happens until the next call. -/
theorem Resting.not_step {S : Setup} {report : List UInt8} {s s' : State Pid} {p : Pid}
    (h : Resting p s) {act : Act Pid} {out : List (Output Pid)} (hact : act.Quiet report p) :
    step S s act ≠ some (s', out) := by
  intro hstep
  cases act with
  | proc q e =>
    obtain ⟨rfl, -⟩ := hact
    simp only [step, h.user] at hstep
    cases hstep
  | complete d status data =>
    have hflight := (step_complete_iff.1 hstep).1
    rw [(h.chan d).landed] at hflight
    cases hflight
  | openFile | start | startRelease | unplug => exact hact.elim

/-! ### One call -/

/-- **What a call returns**, whatever the order of its steps: until then it keeps to its stages. -/
theorem quiet_exec {S : Setup} {report : List UInt8} {s s' : State Pid} {p : Pid} {c : Call}
    {f : Frame Pid} {acts : List (Act Pid)} {log : List (Output Pid)}
    (hsize : report.length = 8) (hsuits : c.Suits S report) (hrest : Resting p s)
    (hstage : Stage report p c f) (hacts : ∀ a ∈ acts, a.Quiet report p)
    (hrun : (system S Pid).exec (s.setFrame p c f) acts = some (s', log)) :
    (log = [] ∧ ∃ f', s' = s.setFrame p c f' ∧ Stage report p c f') ∨
      ∃ ret user advance, log = [.returned p ret user advance] ∧
        c.Result report ret user advance ∧ Resting p s' ∧ s'.inside = s.inside.erase p ∧
        (c.dir = .input → Printed report s'.kBuffer) := by
  refine System.exec_induction_along (S := system S Pid) (P := fun _ a => a.Quiet report p)
    (I := fun t log => (log = [] ∧ ∃ f', t = s.setFrame p c f' ∧ Stage report p c f') ∨
      ∃ ret user advance, log = [.returned p ret user advance] ∧
        c.Result report ret user advance ∧ Resting p t ∧ t.inside = s.inside.erase p ∧
        (c.dir = .input → Printed report t.kBuffer)) ?_ (.inl ⟨rfl, f, rfl, hstage⟩)
    (System.along_of_forall hacts _) hrun
  rintro t log act t' out (⟨rfl, f', rfl, hstage'⟩ | ⟨ret, user, advance, -, -, hrest', -⟩) hact hstep
  · rcases served_of_step hrest hact hstep with
      ⟨f'', hserved, rfl, rfl⟩ | ⟨ret, user, advance, hpc, hleave⟩
    · exact .inl ⟨rfl, f'', rfl, hstage'.served hsize hsuits hserved⟩
    · obtain ⟨ch, kBuffer, o, pc⟩ := f'
      cases hpc
      obtain ⟨hch, hresult, hprinted⟩ := hstage'
      obtain ⟨rfl, rfl⟩ := Prod.mk.inj hleave
      exact .inr ⟨ret, user, advance, rfl, hresult, hrest.leave hch ret user advance, rfl, hprinted⟩
  · exact absurd hstep (hrest'.not_step hact)

/-- A call comes to its return. -/
theorem exec_return {S : Setup} {report : List UInt8} {s : State Pid} {p : Pid} {c : Call}
    (hsize : report.length = 8) (hsuits : c.Suits S report) (hrest : Resting p s) {f : Frame Pid}
    (hstage : Stage report p c f) :
    ∃ acts s' ret user advance, (∀ a ∈ acts, a.Quiet report p) ∧
      (system S Pid).exec (s.setFrame p c f) acts = some (s', [.returned p ret user advance]) := by
  induction hn : f.left using Nat.strong_induction_on generalizing f with
  | _ n ih =>
    subst hn
    rcases hstage.progress hsuits with ⟨ret, user, advance, hpc⟩ | ⟨f', hserved, hlt⟩
    · refine ⟨[.proc p .run], _, ret, user, advance, ?_,
        System.exec_cons.2 ⟨_, _, [], step_ret (hpc ▸ proc_setFrame s p c f), rfl, rfl⟩⟩
      intro a ha
      rw [List.mem_singleton.1 ha]
      exact ⟨rfl, .inl rfl⟩
    · obtain ⟨act, hact, hstep⟩ := step_of_served (S := S) hrest.device hserved
      obtain ⟨acts, s', ret, user, advance, hacts, hrun⟩ :=
        ih f'.left hlt (hstage.served hsize hsuits hserved) rfl
      refine ⟨act :: acts, s', ret, user, advance, ?_,
        System.exec_cons.2 ⟨_, _, _, hstep, hrun, rfl⟩⟩
      intro a ha
      rcases List.mem_cons.1 ha with rfl | ha
      · exact hact
      · exact hacts a ha

/-- A call that does not wait has one way to go on. -/
theorem quiet_act_eq {S : Setup} {report : List UInt8} {s s' : State Pid} {p : Pid} {c : Call}
    {f : Frame Pid} {act : Act Pid} {out : List (Output Pid)} (hrest : Resting p s)
    (hstage : Stage report p c f) (hpc : f.pc.runs = true ∨ f.pc = .submit)
    (hact : act.Quiet report p) (h : step S (s.setFrame p c f) act = some (s', out)) :
    act = .proc p f.pc.event := by
  cases act with
  | proc q e =>
    obtain ⟨rfl, he⟩ := hact
    rcases callStep_of_step (proc_setFrame s q c f) h with ⟨f', hf', -⟩ | ⟨ret, user, advance, hret, -⟩
    · rw [chan_setFrame] at hf'
      change callStep S s.device q c f e = some f' at hf'
      rw [hrest.device] at hf'
      rw [hstage.event_eq hpc he hf']
    · rw [hret] at hpc
      rcases hpc with hpc | hpc <;> cases hpc
  | complete d status data =>
    have hflight := (step_complete_iff.1 h).1
    by_cases hd : d = c.dir
    · subst hd
      rw [chan_setFrame, hstage.landed hpc] at hflight
      cases hflight
    · rw [chan_setFrame_of_ne hd, (hrest.chan d).landed] at hflight
      cases hflight
  | openFile | start | startRelease | unplug => exact hact.elim

/-- A call whose next step is known: the runs from there are those that begin with it. -/
theorem prefix_or_prefix {S : Setup} {report : List UInt8} {s : State Pid} {p : Pid} {c : Call}
    {f f' : Frame Pid} (hrest : Resting p s) (hstage : Stage report p c f)
    (hpc : f.pc.runs = true ∨ f.pc = .submit)
    (hstep : step S (s.setFrame p c f) (.proc p f.pc.event) = some (s.setFrame p c f', []))
    {first : List (Act Pid)}
    (hnext : ∀ acts, (∀ a ∈ acts, a.Quiet report p) →
      ((system S Pid).exec (s.setFrame p c f') acts).isSome → first <+: acts ∨ acts <+: first)
    (acts : List (Act Pid)) (hacts : ∀ a ∈ acts, a.Quiet report p)
    (hrun : ((system S Pid).exec (s.setFrame p c f) acts).isSome) :
    .proc p f.pc.event :: first <+: acts ∨ acts <+: .proc p f.pc.event :: first := by
  cases acts with
  | nil => exact .inr List.nil_prefix
  | cons a acts =>
    obtain ⟨⟨t, log⟩, hrun⟩ := Option.isSome_iff_exists.1 hrun
    obtain ⟨t', out, outs, hstep', hrest', -⟩ := System.exec_cons.1 hrun
    have ha := quiet_act_eq hrest hstage hpc (hacts a List.mem_cons_self) hstep'
    subst ha
    change step S (s.setFrame p c f) (.proc p f.pc.event) = some (t', out) at hstep'
    rw [hstep] at hstep'
    cases hstep'
    rw [List.prefix_cons_inj, List.prefix_cons_inj]
    exact hnext acts (fun b hb => hacts b (List.mem_cons_of_mem _ hb))
      (Option.isSome_iff_exists.2 ⟨_, hrest'⟩)

/-- A write comes to its submission, in one way. -/
theorem exec_submit {S : Setup} {report : List UInt8} {s : State Pid} {p : Pid} {c : Call}
    (hsize : report.length = 8) (hsuits : c.Suits S report) (hrest : Resting p s)
    (hdir : c.dir = .output) {f : Frame Pid} (hstage : Stage report p c f)
    (hfar : 8 ≤ f.pc.left) :
    ∃ first f', (∀ a ∈ first, a.Quiet report p) ∧
      (system S Pid).exec (s.setFrame p c f) first = some (s.setFrame p c f', []) ∧
      f'.ch.inFlight = true ∧ f'.ch.bytes.load 0 8 = report ∧
      ∀ acts, (∀ a ∈ acts, a.Quiet report p) →
        ((system S Pid).exec (s.setFrame p c f) acts).isSome →
        first <+: acts ∨ acts <+: first := by
  induction hn : f.pc.left using Nat.strong_induction_on generalizing f with
  | _ n ih =>
    subst hn
    by_cases hpc : f.pc = .submit
    · -- the buffer has been filled
      have hevent : f.pc.event = .submit 0 := by rw [hpc]; rfl
      have hstep : step S (s.setFrame p c f) (.proc p (.submit 0)) = _ :=
        step_of_callStep (hstage.submit hpc)
      have hbytes : f.ch.bytes.load 0 8 = report := by
        obtain ⟨ch, kBuffer, o, pc⟩ := f
        cases hpc
        exact hstage.2 hdir
      refine ⟨[.proc p (.submit 0)], _, ?_, System.exec_cons.2 ⟨_, _, [], hstep, rfl, rfl⟩, rfl,
        hbytes, ?_⟩
      · intro a ha
        rw [List.mem_singleton.1 ha]
        exact ⟨rfl, .inr (.inl rfl)⟩
      · rw [← hevent] at hstep ⊢
        exact prefix_or_prefix hrest hstage (.inr hpc) hstep fun acts _ _ => .inl List.nil_prefix
    · obtain ⟨hruns, hevent, hahead'⟩ := Pc.before_submit hfar hpc
      obtain ⟨f₁, hrun, hlt, hahead⟩ := hstage.runs hsuits hruns
      have hfar₁ : 8 ≤ f₁.pc.left := hahead hdir hahead'
      have hstep : step S (s.setFrame p c f) (.proc p .run) = some (s.setFrame p c f₁, []) :=
        step_of_callStep (by rw [hrest.device]; exact hrun)
      obtain ⟨first, f', hfirst, hexec, hflight, hbytes, honly⟩ :=
        ih f₁.pc.left hlt (hstage.run hsize hsuits hrun) hfar₁ rfl
      refine ⟨.proc p .run :: first, f', ?_, System.exec_cons.2 ⟨_, _, _, hstep, hexec, rfl⟩,
        hflight, hbytes, ?_⟩
      · intro a ha
        rcases List.mem_cons.1 ha with rfl | ha
        · exact ⟨rfl, .inl rfl⟩
        · exact hfirst a ha
      · rw [← hevent] at hstep ⊢
        exact prefix_or_prefix hrest hstage (.inl hruns) hstep honly

/-! ### Calls of a process that has the file open -/

/-- The call `c` of process `p` begins in `s` and returns in `s'`. -/
def Calls (S : Setup) (report : List UInt8) (p : Pid) (c : Call) (s s' : State Pid) (ret : ℤ)
    (user : List UInt8) (advance : ℕ) : Prop :=
  ∃ acts, (∀ a ∈ acts, a.Quiet report p) ∧
    (system S Pid).exec s (.start p c :: acts) = some (s', [.returned p ret user advance])

/-- In every order of its steps, the call `c` of process `p` begins with `first`, at the end of which
the URB is on its way with `bytes` in the output buffer. -/
def Submits (S : Setup) (p : Pid) (c : Call) (s : State Pid) (bytes : List UInt8) : Prop :=
  (s.chan .output).inFlight = false ∧
  ∃ first s', (∀ a ∈ first, a.Quiet bytes p) ∧
    (system S Pid).exec s (.start p c :: first) = some (s', []) ∧
    (s'.chan .output).inFlight = true ∧ (s'.chan .output).bytes.load 0 8 = bytes ∧
    ∀ acts, (∀ a ∈ acts, a.Quiet bytes p) →
      ((system S Pid).exec s (.start p c :: acts)).isSome → first <+: acts ∨ acts <+: first

/-- The first step. -/
theorem step_start {S : Setup} {s : State Pid} {p : Pid} (h : Resting p s)
    (hversion : S.version = .vii05) (c : Call) :
    step S s (.start p c) =
      some ({ s with inside := insert p s.inside }.setFrame p c (s.begins c), []) := by
  have hchan : Function.update s.chan c.dir (s.chan c.dir) = s.chan := Function.update_eq_self ..
  simp only [step, h.user, h.opened, hversion, State.setFrame, State.begins, hchan]
  exact if_pos ⟨trivial, fun _ => trivial⟩

theorem Resting.enter {s : State Pid} {p : Pid} (h : Resting p s) :
    Resting p { s with inside := insert p s.inside } := ⟨h.device, h.opened, h.user, h.chan⟩

theorem Calls.result {S : Setup} {report : List UInt8} {p : Pid} {c : Call} {s s' : State Pid}
    {ret : ℤ} {user : List UInt8} {advance : ℕ} (h : Calls S report p c s s' ret user advance)
    (hversion : S.version = .vii05) (hsize : report.length = 8) (hsuits : c.Suits S report)
    (hrest : Resting p s) (hfinds : c.Finds report s.kBuffer) :
    c.Result report ret user advance ∧ Resting p s' ∧ s'.inside = (insert p s.inside).erase p ∧
      (c.dir = .input → Printed report s'.kBuffer) := by
  obtain ⟨acts, hacts, hrun⟩ := h
  obtain ⟨t, out, outs, hstep, hrun', hlog⟩ := System.exec_cons.1 hrun
  change step S s (.start p c) = some (t, out) at hstep
  rw [step_start hrest hversion c] at hstep
  cases hstep
  rcases quiet_exec hsize hsuits hrest.enter (stage_begins hrest hfinds) hacts hrun' with
    ⟨rfl, -⟩ | ⟨ret', user', advance', rfl, hresult⟩
  · cases hlog
  · cases hlog
    exact hresult

theorem exists_calls {S : Setup} {report : List UInt8} {p : Pid} {c : Call} {s : State Pid}
    (hversion : S.version = .vii05) (hsize : report.length = 8) (hsuits : c.Suits S report)
    (hrest : Resting p s) (hfinds : c.Finds report s.kBuffer) :
    ∃ s' ret user advance, Calls S report p c s s' ret user advance := by
  obtain ⟨acts, s', ret, user, advance, hacts, hrun⟩ :=
    exec_return hsize hsuits hrest.enter (stage_begins hrest hfinds)
  exact ⟨s', ret, user, advance, acts, hacts,
    System.exec_cons.2 ⟨_, _, _, step_start hrest hversion c, hrun, rfl⟩⟩

/-- **A write of the text of a report hands its bytes over.** -/
theorem submits_write {S : Setup} {report : List UInt8} {p : Pid} {c : Call} {s : State Pid}
    (hversion : S.version = .vii05) (hsize : report.length = 8) (hsuits : c.Suits S report)
    (hdir : c.dir = .output) (hrest : Resting p s) : Submits S p c s report := by
  have hfinds : c.Finds report s.kBuffer := by
    rintro a rfl
    cases hdir
  obtain ⟨first, f', hfirst, hexec, hflight, hbytes, honly⟩ := exec_submit hsize hsuits hrest.enter
    hdir (stage_begins hrest hfinds) (show 8 ≤ 22 by decide)
  have hstart := step_start hrest hversion c
  have hchan := chan_setFrame { s with inside := insert p s.inside } p c f'
  rw [hdir] at hchan
  refine ⟨(hrest.chan .output).landed, first, _, hfirst,
    System.exec_cons.2 ⟨_, _, _, hstart, hexec, rfl⟩, by rw [hchan, hflight],
    by rw [hchan, hbytes], fun acts hacts hrun => honly acts hacts ?_⟩
  obtain ⟨⟨t, log⟩, hrun⟩ := Option.isSome_iff_exists.1 hrun
  obtain ⟨t', out, outs, hstep, hrun', -⟩ := System.exec_cons.1 hrun
  change step S s (.start p c) = some (t', out) at hstep
  rw [hstart] at hstep
  cases hstep
  exact Option.isSome_iff_exists.2 ⟨_, hrun'⟩

/-! ### Reading a report in parts -/

/-- Successive reads of process `p` through one file, of which the `k`-th has the length `lengths k`,
from `offset` until one of them returns 0; `got` is what they have given. -/
inductive Reads (S : Setup) (report : List UInt8) (p : Pid) (lengths : ℕ → ℕ) :
    ℕ → ℕ → State Pid → State Pid → List UInt8 → Prop
  | stop {k offset copied : ℕ} {s s' : State Pid} {user : List UInt8} {advance : ℕ}
      (h : Calls S report p (.read ⟨offset, lengths k, copied⟩) s s' 0 user advance) :
      Reads S report p lengths k offset s s' user
  | more {k offset copied : ℕ} {s s' s'' : State Pid} {ret : ℤ} {user got : List UInt8}
      {advance : ℕ}
      (h : Calls S report p (.read ⟨offset, lengths k, copied⟩) s s' ret user advance)
      (hret : 0 < ret) (hmore : Reads S report p lengths (k + 1) (offset + advance) s' s'' got) :
      Reads S report p lengths k offset s s'' (user ++ got)

/-- **What the reads give is the rest of the text and its NUL**, however it is cut. -/
theorem Reads.text {S : Setup} {report : List UInt8} {p : Pid} {lengths : ℕ → ℕ} {k offset : ℕ}
    {s s' : State Pid} {got : List UInt8} (h : Reads S report p lengths k offset s s' got)
    (hversion : S.version = .vii05) (hsize : report.length = 8) (hlengths : ∀ k, 0 < lengths k)
    (hoffset : offset ≤ (reportText report).length + 1) (hrest : Resting p s)
    (hinside : s.inside = ∅) (hprinted : offset ≠ 0 → Printed report s.kBuffer) :
    got = (reportText report ++ [0]).drop offset ∧ Resting p s' ∧ s'.inside = ∅ := by
  have hsize' : (reportText report ++ [0]).length = (reportText report).length + 1 := by
    rw [List.length_append, List.length_singleton]
  have herase : ∀ t : State Pid, t.inside = ∅ → (insert p t.inside).erase p = ∅ := fun t ht => by
    rw [ht, Finset.erase_insert (Finset.notMem_empty p)]
  induction h with
  | @stop k offset copied s s' user advance h =>
    obtain ⟨hresult, hrest', hinside', -⟩ := h.result hversion hsize hoffset hrest
      fun a heq hne => by cases heq; exact hprinted hne
    refine ⟨?_, hrest', hinside'.trans (herase s hinside)⟩
    rcases hresult with ⟨-, hret, -⟩ | ⟨hret, -, huser⟩
    · exact absurd hret (by decide)
    · -- no byte is left
      have hpart : min (lengths k) ((reportText report).length + 1 - offset) = 0 :=
        (Int.natCast_eq_zero.1 hret.symm)
      have hpos := hlengths k
      rw [huser]
      change List.take (min (lengths k) _) _ = _
      rw [hpart, List.take_zero, List.drop_eq_nil_of_le (by omega)]
  | @more k offset copied s s' s'' ret user got advance h hret hmore ih =>
    obtain ⟨hresult, hrest', hinside', hprinted'⟩ := h.result hversion hsize hoffset hrest
      fun a heq hne => by cases heq; exact hprinted hne
    rcases hresult with ⟨-, hfault, -⟩ | ⟨-, hadvance, huser⟩
    · rw [hfault] at hret
      exact absurd hret (by decide)
    · have hle : advance ≤ (reportText report).length + 1 - offset :=
        hadvance.trans_le (Nat.min_le_right ..)
      obtain ⟨hgot, hlast⟩ := ih (by omega) hrest' (hinside'.trans (herase s hinside))
        fun _ => hprinted' rfl
      refine ⟨?_, hlast⟩
      rw [hgot, huser, ← hadvance, ← List.drop_drop, List.take_append_drop]

/-- The reads come to their end. -/
theorem exists_reads {S : Setup} {report : List UInt8} {p : Pid} {lengths : ℕ → ℕ}
    (hversion : S.version = .vii05) (hsize : report.length = 8) (hlengths : ∀ k, 0 < lengths k)
    {k offset : ℕ} {s : State Pid} (hoffset : offset ≤ (reportText report).length + 1)
    (hrest : Resting p s) (hprinted : offset ≠ 0 → Printed report s.kBuffer) :
    ∃ s' got, Reads S report p lengths k offset s s' got := by
  induction hn : (reportText report).length + 1 - offset using Nat.strong_induction_on
    generalizing k offset s with
  | _ n ih =>
    subst hn
    have hfinds : Call.Finds report s.kBuffer (.read ⟨offset, lengths k, lengths k⟩) :=
      fun a heq hne => by cases heq; exact hprinted hne
    have hsuits : Call.Suits S report (.read ⟨offset, lengths k, lengths k⟩) := hoffset
    obtain ⟨s₁, ret, user, advance, hcall⟩ := exists_calls hversion hsize hsuits hrest hfinds
    obtain ⟨hresult, hrest₁, -, hprinted₁⟩ := hcall.result hversion hsize hoffset hrest hfinds
    rcases hresult with ⟨hfault, -⟩ | ⟨hret, hadvance, -⟩
    · -- the whole length can be copied
      exact absurd hfault (not_lt.2 (Nat.min_le_left ..))
    · by_cases hend : offset = (reportText report).length + 1
      · have hzero : ret = 0 := by
          rw [hret, Int.natCast_eq_zero]
          change min (lengths k) ((reportText report).length + 1 - offset) = 0
          omega
        rw [hzero] at hcall
        exact ⟨s₁, user, .stop hcall⟩
      · have hpart : advance = min (lengths k) ((reportText report).length + 1 - offset) := hadvance
        have hret' : ret = advance := by rw [hret, hadvance]
        have hpos := hlengths k
        obtain ⟨s₂, got, hmore⟩ := ih ((reportText report).length + 1 - (offset + advance))
          (by omega) (k := k + 1) (by omega) hrest₁ (fun _ => hprinted₁ rfl) rfl
        exact ⟨s₂, user ++ got, .more hcall (by omega) hmore⟩

/-! ### The round trip -/

/-- The driver of a plugged device has come to `s`, and no signal has come. -/
def Reached (abi : Abi) (s : State Pid) : Prop :=
  ∃ heap acts log, (∀ p, .proc p .signal ∉ acts) ∧
    (system (vii05 abi) Pid).exec (init Pid heap []) acts = some (s, log)

/-- The file is open, and no call is under way. -/
def State.Free (p : Pid) (s : State Pid) : Prop :=
  s.inside = ∅ ∧ 0 < s.opened ∧ s.proc p = .user

theorem Reached.resting {abi : Abi} {s : State Pid} {p : Pid} (h : Reached abi s)
    (hfree : s.Free p) : Resting p s := by
  obtain ⟨heap, acts, log, hsignal, hrun⟩ := h
  exact (settled_exec (settled_init heap) hsignal hrun).resting hfree.1 hfree.2.1 hfree.2.2

theorem Reached.calls {abi : Abi} {report : List UInt8} {p : Pid} {c : Call} {s s' : State Pid}
    {ret : ℤ} {user : List UInt8} {advance : ℕ} (h : Reached abi s)
    (hcall : Calls (vii05 abi) report p c s s' ret user advance) : Reached abi s' := by
  obtain ⟨heap, acts, log, hsignal, hrun⟩ := h
  obtain ⟨acts', hacts', hrun'⟩ := hcall
  refine ⟨heap, acts ++ .start p c :: acts', _, fun q hq => ?_, System.exec_append hrun hrun'⟩
  rcases List.mem_append.1 hq with hq | hq
  · exact hsignal q hq
  · rcases List.mem_cons.1 hq with heq | hq
    · cases heq
    · obtain ⟨-, he | he | he⟩ := hacts' _ hq <;> cases he

theorem Reached.reads {abi : Abi} {report : List UInt8} {p : Pid} {lengths : ℕ → ℕ} {k offset : ℕ}
    {s s' : State Pid} {got : List UInt8} (h : Reached abi s)
    (hreads : Reads (vii05 abi) report p lengths k offset s s' got) : Reached abi s' := by
  induction hreads with
  | stop hcall => exact h.calls hcall
  | more hcall _ _ ih => exact ih (h.calls hcall)

/-- **The round trip of a report.** A process reads the report from the beginning, in parts of any
positive lengths, until a read returns 0. This comes to an end; and whoever then, or at any other
time, writes what the reads have given makes the driver hand over the eight bytes of the report. -/
theorem report_round_trip {abi : Abi} {s : State Pid} {p : Pid} {report : List UInt8}
    {lengths : ℕ → ℕ} (hreach : Reached abi s) (hfree : s.Free p) (hsize : report.length = 8)
    (hlengths : ∀ k, 0 < lengths k) :
    (∃ (s₁ : State Pid) (text : List UInt8), Reads (vii05 abi) report p lengths 0 0 s s₁ text) ∧
    ∀ (s₁ : State Pid) (text : List UInt8), Reads (vii05 abi) report p lengths 0 0 s s₁ text →
      (Reached abi s₁ ∧ s₁.Free p) ∧
      ∀ (s₂ : State Pid) (q : Pid) (heap : Memory UInt8) (copied : ℕ), Reached abi s₂ → s₂.Free q → text.length ≤ copied →
        Submits (vii05 abi) q (.write ⟨text, some heap, copied⟩) s₂ report := by
  have hrest := hreach.resting hfree
  refine ⟨exists_reads rfl hsize hlengths (Nat.zero_le _) hrest fun h => absurd rfl h,
    fun s₁ text hreads => ?_⟩
  obtain ⟨htext, hrest₁, hinside₁⟩ := hreads.text rfl hsize hlengths (Nat.zero_le _) hrest hfree.1
    fun h => absurd rfl h
  refine ⟨⟨hreach.reads hreads, hinside₁, hrest₁.opened, hrest₁.user⟩,
    fun s₂ q heap copied hreach₂ hfree₂ hcopied => ?_⟩
  rw [List.drop_zero] at htext
  subst htext
  rw [List.length_append, List.length_singleton] at hcopied
  refine submits_write rfl hsize ⟨_, prepare_text (vii05 abi) (nulFree_reportText report) hcopied
    (sscanf_reportText hsize), fun i => ?_⟩ rfl (hreach₂.resting hfree₂)
  have hi : (i : ℕ) < report.length := by omega
  rw [lowByte_toNat, List.getD_eq_getElem?_getD, List.getElem?_eq_getElem hi, Option.getD_some]

/-- A report read in parts of five bytes by the process that has just opened the file, and written
back. -/
theorem report_round_trip_opened :
    ∃ s s₁ : State ℕ, ∃ text : List UInt8, Reached .lp64 s ∧ s.Free 0 ∧
      Reads (vii05 .lp64) [0, 9, 10, 99, 100, 127, 128, 255] 0 (fun _ => 5) 0 0 s s₁ text ∧
      Submits (vii05 .lp64) 0 (.write ⟨text, some fun _ => 0, text.length⟩) s₁
        [0, 9, 10, 99, 100, 127, 128, 255] := by
  have hreach : Reached .lp64 { init ℕ (fun _ _ => 0) [] with openCount := 1, opened := 1 } :=
    ⟨fun _ _ => 0, [.openFile 0 false], _, fun p hp => (by cases hp with | tail _ h => cases h), rfl⟩
  have hfree : State.Free 0 { init ℕ (fun _ _ => 0) [] with openCount := 1, opened := 1 } :=
    ⟨rfl, by decide, rfl⟩
  obtain ⟨⟨s₁, text, hreads⟩, hall⟩ := @report_round_trip ℕ _ _ _ _
    [0, 9, 10, 99, 100, 127, 128, 255] (fun _ => 5) hreach hfree rfl fun _ => by decide
  obtain ⟨⟨hreach₁, hfree₁⟩, hsubmits⟩ := hall s₁ text hreads
  exact ⟨_, s₁, text, hreach, hfree, hreads,
    hsubmits s₁ 0 (fun _ => 0) text.length hreach₁ hfree₁ le_rfl⟩

end IldDrivers.ExampleVII
