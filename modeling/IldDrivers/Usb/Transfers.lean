import IldDrivers.Usb.OpenCount
import IldDrivers.Usb.Plug
import IldDrivers.Usb.RoundTrip

/-!
# The lengths of the transfers (`example-VII-05`)

`example_probe` allocates buffers of 8 bytes and accepts endpoints with packets of 8 bytes or more;
`example_write` transfers 8 bytes, `example_read` as many as a packet of its endpoint has.

* `step`: the driver, with the lengths that `usb_fill_int_urb` puts into the URBs; what arrives from
  the device is not longer;
* `Filled`: a call that is about to submit its URB has put its length into it;
* `transfers_fit_iff`: when the transfers fit into the buffers.
-/

namespace IldDrivers.ExampleVII.Transfers

/-- The length that `example_write` and `example_read` give to `usb_fill_int_urb`. (Without an
endpoint there is none.) -/
def transferLength (g : Plug.Globals) : Direction → ℕ
  | .output => Plug.exampleBufferSize.toNat
  | .input => (g.inEndpoint.map fun d => d.wMaxPacketSize.toNat).getD 0

/-- What `example_probe` gives to `kmalloc`. -/
def bufferSize : Direction → ℕ
  | .output | .input => Plug.exampleBufferSize.toNat

structure State (Pid : Type*) where
  driver : ExampleVII.State Pid
  /-- The `transfer_buffer_length` of the URBs. -/
  length : Direction → ℕ

inductive Transfer
  /-- `usb_submit_urb` is called for a URB with this length. -/
  | submitted (d : Direction) (length : ℕ)
  /-- A URB completes with this `actual_length`. -/
  | completed (d : Direction) (length : ℕ)
  deriving DecidableEq

/-- The bytes of the transfer are in the buffer. -/
def Transfer.Fits : Transfer → Prop
  | .submitted d length | .completed d length => length ≤ bufferSize d

variable {Pid : Type*}

/-- The direction of the URB that an action fills. -/
def fills (s : ExampleVII.State Pid) : Act Pid → Option Direction
  | .proc p .run =>
      match (s.proc p).place with
      | some (d, .fill) => some d
      | _ => none
  | _ => none

/-- The transfers of an action. -/
def State.transfers (s : State Pid) : Act Pid → List Transfer
  | .proc p (.submit _) =>
      match (s.driver.proc p).place with
      | some (d, .submit) => [.submitted d (s.length d)]
      | _ => []
  | .complete d _ data => [.completed d data.length]
  | _ => []

/-- A transfer is not longer than the URB says. -/
def State.Admits (s : State Pid) : Act Pid → Prop
  | .complete d _ data => data.length ≤ s.length d
  | _ => True

instance (s : State Pid) (a : Act Pid) : Decidable (s.Admits a) :=
  match a with
  | .complete d _ data => inferInstanceAs (Decidable (data.length ≤ s.length d))
  | .openFile _ _ | .start _ _ | .startRelease _ | .proc _ _ | .unplug => isTrue trivial

/-- After an action that has led the driver to `t`. -/
def State.next (s : State Pid) (len : Direction → ℕ) (a : Act Pid) (t : ExampleVII.State Pid) :
    State Pid where
  driver := t
  length :=
    match fills s.driver a with
    | some d => Function.update s.length d (len d)
    | none => s.length

/-- `usb_alloc_urb` sets the URBs to zero. -/
def init (Pid : Type*) (heap : Direction → Memory UInt8) (unplug : List UnplugStmt) : State Pid :=
  ⟨ExampleVII.init Pid heap unplug, fun _ => 0⟩

def step [DecidableEq Pid] (S : Setup) (len : Direction → ℕ) (s : State Pid) (a : Act Pid) :
    Option (State Pid × List Transfer) :=
  if s.Admits a then
    (ExampleVII.step S s.driver a).map fun r => (s.next len a r.1, s.transfers a)
  else none

/-- The driver, with the global variables as `example_probe` has left them. -/
def system (S : Setup) (g : Plug.Globals) (Pid : Type*) [DecidableEq Pid] :
    System (State Pid) (Act Pid) Transfer := ⟨step S (transferLength g)⟩

/-! ### What the URBs have in them -/

/-- A call comes to its submission from `usb_fill_int_urb`. -/
theorem fill_of_submit {S : Setup} {device : Ptr} {p : Pid} {c : Call} {f f' : Frame Pid} {e : Event}
    (h : callStep S device p c f e = some f') (hpc : f'.pc = .submit) : f.pc = .fill ∧ e = .run := by
  by_cases he : e = .run
  · subst he
    refine ⟨?_, rfl⟩
    have htail : ∀ a pc, f.pc.holds = false → f' = tailStep S a f pc → f.pc = .fill := by
      intro a pc hout hf'
      have hout' := (tailStep_outside S a hout pc).1
      rw [← hf', hpc] at hout'
      cases hout'
    cases ran_of_runStep h with
    | fills hfill => exact hfill
    | stores i _ hf' =>
      subst hf'
      dsimp only at hpc
      split_ifs at hpc
    | marks _ hf' | succeeds _ _ hf' =>
      subst hf'
      cases c <;> cases hpc
    | measures a _ hm hf' => exact htail a _ (by rw [hm]; rfl) hf'
    | copies a lg _ hm hf' => exact htail a _ (by rw [hm]; rfl) hf'
    | refuses _ _ _ _ _ hf' | prepares _ _ _ _ _ hf' | begins _ _ _ _ hf' | continues _ _ _ _ hf'
    | locks _ _ hf' | noDevice _ _ hf' | hasDevice _ _ hf' | unlocksNoDev _ hf' | waitsBusy _ _ hf'
    | passes _ _ hf' | wakesBusy _ _ hf' | waitsDone _ _ hf' | done _ _ hf' | wakesDone _ _ hf'
    | fails _ _ hf' | clears _ _ _ hf' | formats _ hf' | unlocks _ _ hf' | unlocksText _ hf' =>
      subst hf'
      cases hpc
  · cases waited_of_callStep h he with
    | refused _ _ hf' | submits _ _ hf' | leavesLock _ hf' | leavesBusy _ hf' | leavesDone _ hf'
    | timesBusy _ hf' | timesDone _ hf' =>
      subst hf'
      cases hpc

/-- What is in the URBs. -/
structure Filled (len : Direction → ℕ) (s : State Pid) : Prop where
  length : ∀ d, s.length d = 0 ∨ s.length d = len d
  submit : ∀ p d, (s.driver.proc p).place = some (d, .submit) → s.length d = len d

/-- A process that comes to its submission has filled its URB. -/
theorem fills_of_step [DecidableEq Pid] {S : Setup} {s s' : ExampleVII.State Pid} {a : Act Pid}
    {out : List (Output Pid)} {p : Pid} {d : Direction} (hstep : ExampleVII.step S s a = some (s', out))
    (hp : (s'.proc p).place = some (d, .submit)) :
    (s.proc p).place = some (d, .submit) ∨ fills s a = some d := by
  -- a process that moves elsewhere than into its call
  have hother : ∀ {t : ExampleVII.State Pid} {q : Pid} {x : Proc}, s'.proc = (t.setProc q x).proc →
      t.proc = s.proc → x.place ≠ some (d, .submit) → (s.proc p).place = some (d, .submit) := by
    intro t q x hs' ht hx
    rw [hs'] at hp
    by_cases hpq : p = q
    · rw [hpq, setProc_self] at hp
      exact absurd hp hx
    · rw [setProc_of_ne hpq, ht] at hp
      exact hp
  cases stepped_of_step hstep with
  | stays hs' => exact .inl (hs' ▸ hp)
  | opens _ _ hs' =>
    subst hs'
    exact .inl hp
  | starts q c _ _ hs' => exact .inl (hother (congrArg _ hs') rfl nofun)
  | startsRelease q _ _ _ hs' => exact .inl (hother (congrArg _ hs') rfl nofun)
  | calls q c o pc e f hact hq _ hs' =>
    subst hact
    by_cases hpq : p = q
    · subst hpq
      rcases callStep_of_step hq hstep with ⟨f', hcall, hs'', -⟩ | ⟨ret, user, advance, -, hleave⟩
      · rw [hs'', proc_setFrame] at hp
        obtain ⟨hd, hpc⟩ := Prod.mk.inj (Option.some.inj hp)
        obtain ⟨hfill, rfl⟩ := fill_of_submit hcall hpc
        right
        rw [show pc = .fill from hfill] at hq
        simp only [fills, hq, Proc.place, hd]
      · rw [(Prod.mk.inj hleave).1] at hp
        exact .inl (by simp [Proc.place] at hp)
    · rw [hs'] at hp
      exact .inl (by rwa [setProc_of_ne hpq] at hp)
  | returns q c _ _ _ _ _ hs' => exact .inl (hother (congrArg _ hs') rfl nofun)
  | releases q pc hq hst =>
    obtain ⟨pc', hproc⟩ := hst.proc
    exact .inl (hother (t := s) (x := .release pc') hproc rfl nofun)
  | released q ret _ hs' => exact .inl (hother (congrArg _ hs') rfl nofun)
  | completes d' status bytes _ hs' =>
    subst hs'
    exact .inl hp
  | unplugs stmt rest t _ _ hstmt hs' =>
    subst hs'
    cases unplugStatement_of_unplugStep hstmt with
    | deregisters _ ht | clearsDevice _ ht | locks _ _ _ ht | unlocks _ _ ht
    | touches _ _ _ _ _ _ ht =>
      subst ht
      exact .inl hp

theorem filled_init (len : Direction → ℕ) (heap : Direction → Memory UInt8)
    (unplug : List UnplugStmt) : Filled len (init Pid heap unplug) where
  length d := .inl rfl
  submit p d h := by cases h

/-- The URB of a direction keeps its length or is filled. -/
theorem next_length {len : Direction → ℕ} {s : State Pid} {a : Act Pid}
    (t : ExampleVII.State Pid) (d : Direction) :
    (s.next len a t).length d = if fills s.driver a = some d then len d else s.length d := by
  cases hfills : fills s.driver a with
  | none => simp [State.next, hfills]
  | some d' =>
    by_cases hd : d = d'
    · simp [State.next, hfills, hd]
    · simp [State.next, hfills, Function.update_of_ne hd, Ne.symm hd]

section Steps

variable [DecidableEq Pid] {S : Setup} {len : Direction → ℕ} {s s' : State Pid} {a : Act Pid} {out : List Transfer}

theorem step_eq_some (hstep : step S len s a = some (s', out)) :
    s.Admits a ∧ ∃ t o, ExampleVII.step S s.driver a = some (t, o) ∧ s' = s.next len a t ∧
      out = s.transfers a := by
  simp only [step, Option.ite_none_right_eq_some] at hstep
  obtain ⟨hadmits, hmap⟩ := hstep
  obtain ⟨⟨t, o⟩, hdriver, heq⟩ := Option.map_eq_some_iff.1 hmap
  cases heq
  exact ⟨hadmits, t, o, hdriver, rfl, rfl⟩

theorem filled_step (h : Filled len s) (hstep : step S len s a = some (s', out)) : Filled len s' := by
  obtain ⟨-, t, o, hdriver, rfl, -⟩ := step_eq_some hstep
  refine ⟨fun d => ?_, fun p d hp => ?_⟩
  · rw [next_length]
    split_ifs
    · exact .inr rfl
    · exact h.length d
  · rw [next_length]
    split_ifs with hfills
    · rfl
    · exact h.submit p d ((fills_of_step hdriver hp).resolve_right hfills)

/-- A URB is submitted with the length of its direction, and no more arrives. -/
def Transfer.Meets (len : Direction → ℕ) : Transfer → Prop
  | .submitted d length => length = len d
  | .completed d length => length ≤ len d

theorem Filled.meets (h : Filled len s) (hstep : step S len s a = some (s', out)) :
    ∀ x ∈ out, x.Meets len := by
  obtain ⟨hadmits, t, o, hdriver, -, rfl⟩ := step_eq_some hstep
  intro x hx
  unfold State.transfers at hx
  split at hx
  · split at hx
    · rename_i hplace
      rw [List.mem_singleton.1 hx]
      exact h.submit _ _ hplace
    · cases hx
  · rename_i d status data
    rw [List.mem_singleton.1 hx]
    change data.length ≤ len d
    have hle : data.length ≤ s.length d := hadmits
    rcases h.length d with hzero | heq
    · omega
    · omega
  · cases hx

end Steps

theorem meets_exec [DecidableEq Pid] {S : Setup} {g : Plug.Globals} {heap : Direction → Memory UInt8}
    {unplug : List UnplugStmt} {acts : List (Act Pid)} {s : State Pid} {log : List Transfer}
    (hrun : (system S g Pid).exec (init Pid heap unplug) acts = some (s, log)) :
    ∀ x ∈ log, x.Meets (transferLength g) := by
  refine (System.exec_induction
    (I := fun s log => Filled (transferLength g) s ∧ ∀ x ∈ log, x.Meets (transferLength g)) ?_
    ⟨filled_init _ heap unplug, fun _ h => absurd h List.not_mem_nil⟩ hrun).2
  rintro s log a s' out ⟨hfilled, hlog⟩ hstep
  refine ⟨filled_step hfilled hstep, fun x hx => ?_⟩
  rcases List.mem_append.1 hx with hold | hnew
  · exact hlog x hold
  · exact hfilled.meets hstep x hnew

/-! ### A read that submits -/

section Reads

variable [DecidableEq Pid] {S : Setup} {len : Direction → ℕ}

/-- A process opens the device and reads, up to its submission. -/
def readSubmits (p : Pid) : List (Act Pid) :=
  Act.enters p (.read ⟨0, 0, 0⟩) 6 ++ [.proc p (.submit 0)]

omit [DecidableEq Pid] in
theorem fills_run {s : ExampleVII.State Pid} {p : Pid} {d : Direction} {pc : Pc}
    (hp : (s.proc p).place = some (d, pc)) :
    fills s (.proc p .run) = if pc = .fill then some d else none := by
  simp only [fills, hp]
  split_ifs with hpc
  · rw [hpc]
  · split
    · rename_i heq
      exact absurd (Prod.mk.inj (Option.some.inj heq)).2 hpc
    · rfl

omit [DecidableEq Pid] in
theorem transfers_submit {s : State Pid} {p : Pid} {d : Direction} {err : ℤ}
    (hp : (s.driver.proc p).place = some (d, .submit)) :
    s.transfers (.proc p (.submit err)) = [.submitted d (s.length d)] := by
  simp only [State.transfers, hp]

theorem place_setFrame (s : ExampleVII.State Pid) (p : Pid) (c : Call) (f : Frame Pid) :
    ((s.setFrame p c f).proc p).place = some (c.dir, f.pc) := by
  rw [proc_setFrame]
  rfl

theorem step_of_admits {s : State Pid} {a : Act Pid} {t : ExampleVII.State Pid}
    {o : List (Output Pid)} (h : ExampleVII.step S s.driver a = some (t, o)) (hadmits : s.Admits a) :
    step S len s a = some (s.next len a t, s.transfers a) := by
  rw [step, if_pos hadmits, h]
  rfl

section Statements

variable {s : ExampleVII.State Pid} {p : Pid} {c : Call} {f f' : Frame Pid} {length : Direction → ℕ}

/-- A statement of a call other than `usb_fill_int_urb`. -/
theorem step_run (h : callStep S s.device p c f .run = some f') (hpc : f.pc ≠ .fill) :
    step S len ⟨s.setFrame p c f, length⟩ (.proc p .run) =
      some (⟨s.setFrame p c f', length⟩, []) := by
  have hfills := fills_run (place_setFrame s p c f)
  rw [if_neg hpc] at hfills
  rw [step_of_admits (s := ⟨s.setFrame p c f, length⟩) (step_of_callStep h) trivial, State.next]
  simp only [hfills]
  rfl

theorem step_fill (h : callStep S s.device p c f .run = some f') (hpc : f.pc = .fill) :
    step S len ⟨s.setFrame p c f, length⟩ (.proc p .run) =
      some (⟨s.setFrame p c f', Function.update length c.dir (len c.dir)⟩, []) := by
  have hfills := fills_run (place_setFrame s p c f)
  rw [if_pos hpc] at hfills
  rw [step_of_admits (s := ⟨s.setFrame p c f, length⟩) (step_of_callStep h) trivial, State.next]
  simp only [hfills]
  rfl

theorem step_submit {err : ℤ} (h : callStep S s.device p c f (.submit err) = some f')
    (hpc : f.pc = .submit) :
    step S len ⟨s.setFrame p c f, length⟩ (.proc p (.submit err)) =
      some (⟨s.setFrame p c f', length⟩, [.submitted c.dir (length c.dir)]) := by
  have hplace := place_setFrame s p c f
  rw [hpc] at hplace
  have htransfers : State.transfers ⟨s.setFrame p c f, length⟩ (.proc p (.submit err)) =
      [.submitted c.dir (length c.dir)] := transfers_submit hplace
  rw [step_of_admits (s := ⟨s.setFrame p c f, length⟩) (step_of_callStep h) trivial, htransfers]
  rfl

end Statements

theorem exec_readSubmits {abi : Abi} {sscanf : List UInt8 → Option (Fin 8 → ℤ)} {g : Plug.Globals}
    (heap : Direction → Memory UInt8) (unplug : List UnplugStmt) (p : Pid) :
    ∃ s, (system ⟨.vii05, abi, sscanf⟩ g Pid).exec (init Pid heap unplug) (readSubmits p) =
      some (s, [.submitted .input (transferLength g .input)]) := by
  let c : Call := .read ⟨0, 0, 0⟩
  let s₁ : ExampleVII.State Pid :=
    { ExampleVII.init Pid heap unplug with openCount := 1, opened := 1 }
  have hopen : step ⟨.vii05, abi, sscanf⟩ (transferLength g) (init Pid heap unplug)
      (.openFile p false) = some (⟨s₁, fun _ => 0⟩, []) := rfl
  have hrest : Resting p s₁ := ⟨rfl, Nat.one_pos, rfl, fun _ => ⟨rfl, rfl, rfl, rfl, rfl, rfl⟩⟩
  have hstart : step ⟨.vii05, abi, sscanf⟩ (transferLength g) ⟨s₁, fun _ => 0⟩ (.start p c) =
      some (⟨{ s₁ with inside := insert p s₁.inside }.setFrame p c (s₁.begins c), fun _ => 0⟩,
        []) :=
    step_of_admits (s := ⟨s₁, fun _ => 0⟩) (step_start hrest rfl c) trivial
  -- `enter`, `lock`, the two tests, `busy = 1`, `usb_fill_int_urb`
  refine ⟨_, System.exec_cons.2 ⟨_, _, _, hopen, System.exec_cons.2 ⟨_, _, _, hstart,
    System.exec_cons.2 ⟨_, _, _, step_run rfl nofun, System.exec_cons.2 ⟨_, _, _, step_run rfl nofun,
    System.exec_cons.2 ⟨_, _, _, step_run rfl nofun, System.exec_cons.2 ⟨_, _, _, step_run rfl nofun,
    System.exec_cons.2 ⟨_, _, _, step_run rfl nofun, System.exec_cons.2 ⟨_, _, _, step_fill rfl rfl,
    System.exec_cons.2 ⟨_, _, _, step_submit rfl rfl, rfl, rfl⟩, rfl⟩, rfl⟩, rfl⟩, rfl⟩, rfl⟩, rfl⟩,
    rfl⟩, ?_⟩⟩
  simp [c, Call.dir]

end Reads

/-! ### Every probe that succeeds, and every run after it -/

/-- The endpoint that is left in `example_in_endpoint`. -/
theorem inEndpoint_of_probe {n : ℕ} {g : Plug.Globals} {ds : List Plug.EndpointDescriptor}
    {o : Plug.Outcomes} (hret : (Plug.probe n g ds o).ret = 0) :
    ∃ d, (Plug.interruptEndpoint true ds).or g.inEndpoint = some d ∧
      (Plug.probe n g ds o).globals.inEndpoint = some d := by
  obtain ⟨-, d, -, hd, -, -, -, hendpoint⟩ := Plug.acquireAll_endpoints hret
  rw [Plug.foldl_selectEndpoint] at hd
  exact ⟨d, hd, hendpoint⟩

/-- **Which transfers fit into their buffers**: after a probe that succeeds, all transfers of all runs
do exactly when the packets of the input endpoint that the probe has selected are not longer than
the buffer. -/
theorem transfers_fit_iff (Pid : Type*) [DecidableEq Pid] [Nonempty Pid] {n : ℕ}
    {g : Plug.Globals} {ds : List Plug.EndpointDescriptor} {o : Plug.Outcomes}
    (hret : (Plug.probe n g ds o).ret = 0) (abi : Abi) (sscanf : List UInt8 → Option (Fin 8 → ℤ))
    (heap : Direction → Memory UInt8) (unplug : List UnplugStmt) :
    ∃ d, (Plug.interruptEndpoint true ds).or g.inEndpoint = some d ∧
      ((∀ (acts : List (Act Pid)) s log,
          (system ⟨.vii05, abi, sscanf⟩ (Plug.probe n g ds o).globals Pid).exec
              (init Pid heap unplug) acts = some (s, log) → ∀ x ∈ log, x.Fits) ↔
        d.wMaxPacketSize ≤ Plug.exampleBufferSize) := by
  obtain ⟨d, hd, hendpoint⟩ := inEndpoint_of_probe hret
  have hinput : transferLength (Plug.probe n g ds o).globals .input = d.wMaxPacketSize.toNat := by
    simp only [transferLength, hendpoint, Option.map_some, Option.getD_some]
  refine ⟨d, hd, fun hfit => ?_, fun hsize acts s log hrun x hx => ?_⟩
  · obtain ⟨p⟩ := ‹Nonempty Pid›
    obtain ⟨s, hrun⟩ := exec_readSubmits heap unplug p
    have hread : transferLength (Plug.probe n g ds o).globals .input ≤ bufferSize .input :=
      hfit _ _ _ hrun _ (List.mem_singleton_self _)
    rw [hinput] at hread
    exact UInt16.le_iff_toNat_le.2 hread
  · -- the lengths are those of the two directions
    have hle : ∀ d', transferLength (Plug.probe n g ds o).globals d' ≤ bufferSize d' := by
      intro d'
      cases d' with
      | output => exact le_rfl
      | input =>
        rw [hinput]
        exact UInt16.le_iff_toNat_le.1 hsize
    have hmeets := meets_exec hrun x hx
    cases x with
    | submitted d' length => exact (le_of_eq hmeets).trans (hle d')
    | completed d' length => exact le_trans hmeets (hle d')

/-- The board, with a report of 8 bytes. -/
theorem transfers_fit_iff_k8055 :
    ∃ (s : State ℕ) (log : List Transfer),
      (system (demo .vii05) (Plug.probe 0 Plug.init.globals Plug.k8055 Plug.allSucceed).globals
          ℕ).exec (init ℕ (fun _ _ => 0) [])
        (readSubmits 0 ++ [.complete .input 0 [1, 2, 3, 4, 5, 6, 7, 8]]) = some (s, log) ∧
      log = [.submitted .input 8, .completed .input 8] ∧ ∀ x ∈ log, x.Fits := by
  have hret : (Plug.probe 0 Plug.init.globals Plug.k8055 Plug.allSucceed).ret = 0 := by decide
  obtain ⟨d, hd, hiff⟩ := transfers_fit_iff ℕ hret .lp64 (demo .vii05).sscanf (fun _ _ => 0) []
  cases hd
  obtain ⟨⟨s, log⟩, hrun, hlog⟩ := Option.map_eq_some_iff.1
    (show ((system (demo .vii05)
        (Plug.probe 0 Plug.init.globals Plug.k8055 Plug.allSucceed).globals ℕ).exec
          (init ℕ (fun _ _ => 0) [])
        (readSubmits 0 ++ [.complete .input 0 [1, 2, 3, 4, 5, 6, 7, 8]])).map (fun r => r.2) =
        some [.submitted .input 8, .completed .input 8] by decide +kernel)
  exact ⟨s, log, hrun, hlog, hiff.2 (by decide) _ s log hrun⟩

/-- A device with packets of 64 bytes. -/
def longPackets : List Plug.EndpointDescriptor := [⟨0x81, 3, 64⟩, ⟨0x01, 3, 8⟩]

/-- The probe accepts it; a read submits a URB of 64 bytes for the buffer of 8, and as many arrive. -/
theorem packet_leaves_buffer :
    ∃ (s : State ℕ) (log : List Transfer),
      (Plug.probe 0 Plug.init.globals longPackets Plug.allSucceed).ret = 0 ∧
      (system (demo .vii05) (Plug.probe 0 Plug.init.globals longPackets Plug.allSucceed).globals
          ℕ).exec (init ℕ (fun _ _ => 0) [])
        (readSubmits 0 ++ [.complete .input 0 (List.replicate 64 255)]) = some (s, log) ∧
      log = [.submitted .input 64, .completed .input 64] ∧
      (s.driver.chan .input).bytes 63 = 255 ∧ ¬ ∀ x ∈ log, x.Fits := by
  obtain ⟨⟨s, log⟩, hrun, hval⟩ := Option.map_eq_some_iff.1
    (show ((system (demo .vii05)
        (Plug.probe 0 Plug.init.globals longPackets Plug.allSucceed).globals ℕ).exec
          (init ℕ (fun _ _ => 0) [])
        (readSubmits 0 ++ [.complete .input 0 (List.replicate 64 255)])).map
      (fun r => (r.2, (r.1.driver.chan .input).bytes 63)) =
        some ([.submitted .input 64, .completed .input 64], 255) by decide +kernel)
  simp only [Prod.mk.injEq] at hval
  obtain ⟨rfl, hbyte⟩ := hval
  refine ⟨s, _, by decide, hrun, rfl, hbyte, fun hfit => ?_⟩
  exact absurd (hfit (.submitted .input 64) (by simp)) (show ¬ 64 ≤ bufferSize .input by decide)

end IldDrivers.ExampleVII.Transfers
