import IldDrivers.Usb.Locking

/-!
# Hot-unplug of the USB drivers

`example_disconnect` clears the endpoint, the URB and the buffer of a direction with the mutex of that
direction held, but `example_usb_device` before it takes any mutex.

* `Live`: what a call that has passed its test of `example_usb_device` relies on;
* `live_iff_not_cleared`: a run keeps it exactly when `example_usb_device = NULL` is never executed
  while some call stands between its test and its unlock; and `example_usb_device` itself is there
  up to `usb_fill_int_urb` exactly when it is not executed while a call has that statement before it;
* `device_cleared_in_use`: a run in which it is.
-/

namespace IldDrivers.ExampleVII

variable {Pid : Type*}

/-- The endpoint, the URB and the buffer can be used. -/
def Channel.Valid (ch : Channel Pid) : Prop :=
  ch.endpoint = .valid ∧ ch.urb = .valid ∧ ch.buffer = .valid

/-- Every call that has passed its test has a valid endpoint, URB and buffer until it releases its
mutex, and a valid `example_usb_device` where `uses` says that it counts on it. -/
def Live (uses : Pc → Bool) (s : State Pid) : Prop :=
  ∀ p c o pc, s.proc p = .call c o pc →
    (pc.past = true → (s.chan c.dir).Valid) ∧ (uses pc = true → s.device = .valid)

/-- If the step executes `example_usb_device = NULL`, no call counts on the device. -/
def NotCleared (uses : Pc → Bool) (s : State Pid) (act : Act Pid) : Prop :=
  act = .unplug → ∀ rest, s.unplug = .clearDevice :: rest →
    ∀ p c o pc, s.proc p = .call c o pc → uses pc = false

/-- The process is inside a call that counts on the device. -/
def Proc.relies (uses : Pc → Bool) : Proc → Bool
  | .call _ _ pc => uses pc
  | .user | .release _ => false

/-- The step executes `example_usb_device = NULL`. -/
def clears (s : State Pid) : Act Pid → Bool
  | .unplug => s.unplug.head? == some .clearDevice
  | _ => false

theorem notCleared_iff {uses : Pc → Bool} {s : State Pid} {act : Act Pid} :
    NotCleared uses s act ↔ (clears s act = true → ∀ p, (s.proc p).relies uses = false) := by
  constructor
  · intro h hclears p
    cases act with
    | unplug =>
      obtain ⟨rest, hrest⟩ := List.head?_eq_some_iff.1 (eq_of_beq hclears)
      cases hp : s.proc p with
      | call c o pc => exact h rfl rest hrest p c o pc hp
      | user | release => rfl
    | _ => cases hclears
  · rintro h rfl rest hrest p c o pc hp
    have hclears : clears s .unplug = true := by
      rw [clears, hrest]
      rfl
    have hrelies := h hclears p
    rwa [hp] at hrelies

instance [Fintype Pid] (uses : Pc → Bool) (s : State Pid) (act : Act Pid) :
    Decidable (NotCleared uses s act) := decidable_of_iff _ notCleared_iff.symm

/-! ### From the test on -/

theorem Pc.past_of_usesDevice {pc : Pc} (h : pc.usesDevice = true) : pc.past = true := by
  cases pc <;> first | rfl | cases h

theorem Pc.holds_of_past {pc : Pc} (h : pc.past = true) : pc.holds = true := by
  cases pc <;> first | rfl | cases h

theorem Statement.past {device : Ptr} {p : Pid} {e : Event} {f f' : Frame Pid}
    (h : Statement device p e f f') (hpast : f'.pc.past = true) :
    f.pc.past = true ∨ f.pc = .testDevice ∧ device ≠ .null := by
  cases h with
  | outside _ hpc' | unlocks _ hpc' =>
    rw [Pc.holds_of_past hpast] at hpc'
    cases hpc'
  | locks hpc hfree hpc' hch =>
    rw [hpc'] at hpast
    cases hpast
  | goes _ _ _ _ _ hpast' => exact hpast' hpast
  | marks hpc | stores _ hpc | submits _ hpc | clears _ _ _ hpc =>
    rw [hpc]
    exact .inl rfl

theorem Statement.usesDevice {device : Ptr} {p : Pid} {e : Event} {f f' : Frame Pid}
    (h : Statement device p e f f') (huses : f'.pc.usesDevice = true) :
    f.pc.usesDevice = true ∨ f.pc = .testDevice ∧ device ≠ .null := by
  cases h with
  | outside _ hpc' | unlocks _ hpc' =>
    rw [Pc.holds_of_past (Pc.past_of_usesDevice huses)] at hpc'
    cases hpc'
  | locks hpc hfree hpc' hch =>
    rw [hpc'] at huses
    cases huses
  | goes _ _ _ _ _ _ huses' => exact huses' huses
  | marks hpc | stores _ hpc =>
    rw [hpc]
    exact .inl rfl
  | submits _ _ _ hpc' | clears _ _ _ _ hpc' =>
    rw [hpc'] at huses
    cases huses

/-- The invariant. -/
structure Attached (uses : Pc → Bool) (s : State Pid) : Prop where
  locked : Locked s
  device : s.device = .valid ∨ s.device = .null
  /-- The pointers of both directions last as long as the device does, -/
  pointers : s.device = .valid → ∀ d, (s.chan d).Valid
  /-- because `example_disconnect` clears the device first. -/
  ahead : s.device = .valid → s.unplug = [] ∨ .clearDevice ∈ s.unplug
  live : Live uses s

theorem Statement.valid {device : Ptr} {p : Pid} {e : Event} {f f' : Frame Pid}
    (h : Statement device p e f f') (hvalid : f.ch.Valid) : f'.ch.Valid := by
  obtain ⟨hendpoint, hurb, hbuffer⟩ := h.pointers
  unfold Channel.Valid
  rwa [hendpoint, hurb, hbuffer]

/-- `example_disconnect` is not entered, and what calls rely on is not touched. -/
theorem Attached.mono {uses : Pc → Bool} {s s' : State Pid} (h : Attached uses s)
    (hlocked : Locked s') (hplan : s'.unplug = s.unplug) (hdevice : s'.device = s.device)
    (hvalid : ∀ d, (s.chan d).Valid → (s'.chan d).Valid)
    (hproc : ∀ q c o pc, s'.proc q = .call c o pc →
      s.proc q = .call c o pc ∨ pc.past = false ∧ uses pc = false) : Attached uses s' where
  locked := hlocked
  device := hdevice ▸ h.device
  pointers hd d := hvalid d (h.pointers (hdevice ▸ hd) d)
  ahead hd := hplan ▸ h.ahead (hdevice ▸ hd)
  live q c o pc hq := by
    rcases hproc q c o pc hq with hold | ⟨hpast, huses⟩
    · obtain ⟨hptr, hdev⟩ := h.live q c o pc hold
      exact ⟨fun hpc => hvalid c.dir (hptr hpc), fun hpc => hdevice ▸ hdev hpc⟩
    · exact ⟨fun hpc => absurd (hpast.symm.trans hpc) Bool.false_ne_true,
        fun hpc => absurd (huses.symm.trans hpc) Bool.false_ne_true⟩

/-- A statement of `example_disconnect` that no call minds. -/
theorem Attached.unplug {uses : Pc → Bool} {s t : State Pid} (h : Attached uses s)
    {stmt : UnplugStmt} {rest : List UnplugStmt} (hplan : s.unplug = stmt :: rest)
    (hclear : stmt = .clearDevice → ∀ p c o pc, s.proc p = .call c o pc → uses pc = false)
    (hstmt : unplugStep s stmt = some t) : Attached uses { t with unplug := rest } := by
  have hrules := (hplan ▸ h.locked.plan).1
  have hlocked := h.locked.unplug hplan hstmt
  have hahead : stmt ≠ .clearDevice → s.device = .valid → rest = [] ∨ .clearDevice ∈ rest := by
    intro hne hd
    rcases h.ahead hd with hnil | hmem
    · rw [hplan] at hnil
      cases hnil
    · rw [hplan] at hmem
      exact .inr ((List.mem_cons.1 hmem).resolve_left (Ne.symm hne))
  cases unplugStatement_of_unplugStep hstmt with
  | deregisters hstmt ht =>
    subst hstmt ht
    exact ⟨hlocked, h.device, h.pointers, hahead nofun, h.live⟩
  | clearsDevice hstmt ht =>
    subst hstmt ht
    -- what counted on the device is excluded by the condition
    refine ⟨hlocked, .inr rfl, nofun, nofun, fun p c o pc hp => ⟨(h.live p c o pc hp).1, ?_⟩⟩
    intro huses
    rw [hclear rfl p c o pc hp] at huses
    cases huses
  | locks d hstmt hfree ht | unlocks d hstmt ht =>
    subst hstmt ht
    have hvalid : ∀ d', (s.chan d').Valid → ∀ m, ((s.setChan d { s.chan d with mtx := m }).chan
        d').Valid :=
      fun d' hd' m => setChan_keeps (P := fun _ => Channel.Valid) (fun hv => hv) hd'
    exact ⟨hlocked, h.device, fun hd d' => hvalid d' (h.pointers hd d') _, hahead nofun,
      fun p c o pc hp => ⟨fun hpc => hvalid _ ((h.live p c o pc hp).1 hpc) _,
        (h.live p c o pc hp).2⟩⟩
  | touches d ch htouch hmtx _ _ ht =>
    subst ht
    obtain ⟨hhub, hcleared⟩ := hrules.2 d htouch
    have hne : stmt ≠ .clearDevice := by
      rintro rfl
      cases htouch
    -- the pointers of a direction are touched only after the device is cleared
    have hdevice : s.device ≠ .valid := by
      intro hd
      rcases hahead hne hd with rfl | hmem
      · cases hhub
      · exact hcleared hmem
    refine ⟨hlocked, h.device, fun hd => absurd hd hdevice, fun hd => absurd hd hdevice,
      fun p c o pc hp => ⟨fun hpc => ?_, (h.live p c o pc hp).2⟩⟩
    have hdir : c.dir ≠ d := by
      -- the mutex of `d` is the hub's
      rintro rfl
      have hheld : (s.chan c.dir).mtx = some .hub := by
        refine h.locked.excludes c.dir .hub ?_
        change hubHolds s.unplug c.dir = true
        rw [hplan]
        cases stmt <;> first | exact hhub | cases htouch
      rw [h.locked.holder hp (Pc.holds_of_past hpc)] at hheld
      cases hheld
    change ((s.setChan d ch).chan c.dir).Valid
    rw [setChan_of_ne hdir]
    exact (h.live p c o pc hp).1 hpc

theorem attached_init {S : Setup} (uses : Pc → Bool) (heap : Direction → Memory UInt8) :
    Attached uses (init Pid heap (exampleDisconnect S.version)) where
  locked := locked_init heap (disciplined_exampleDisconnect S.version) fun d => by
    cases S.version <;> cases d <;> rfl
  device := .inl rfl
  pointers _ _ := ⟨rfl, rfl, rfl⟩
  ahead _ := by cases S.version <;> simp [init, exampleDisconnect]
  live p c o pc hp := by cases hp

section Update

variable [DecidableEq Pid]

/-- A statement of a call. -/
theorem Attached.call {uses : Pc → Bool} {s : State Pid} (h : Attached uses s)
    (htest : ∀ {device : Ptr} {p : Pid} {e : Event} {f f' : Frame Pid},
      Statement device p e f f' → uses f'.pc = true →
        uses f.pc = true ∨ f.pc = .testDevice ∧ device ≠ .null)
    {p : Pid} {c : Call} {o : Fin 8 → ℤ} {pc : Pc} {e : Event} {f : Frame Pid}
    (hp : s.proc p = .call c o pc)
    (hst : Statement s.device p e ⟨s.chan c.dir, s.kBuffer, o, pc⟩ f)
    (hlocked : Locked (s.setFrame p c f)) :
    Attached uses (s.setFrame p c f) := by
  have hvalid : ∀ d, (s.chan d).Valid → ((s.setChan c.dir f.ch).chan d).Valid :=
    fun d hd => setChan_keeps (P := fun _ => Channel.Valid) hst.valid hd
  refine ⟨hlocked, h.device, fun hd d => hvalid d (h.pointers hd d), h.ahead,
    fun q c' o' pc' hq => ?_⟩
  rcases setProc_eq_call hq with ⟨rfl, heq⟩ | ⟨-, hold⟩
  · cases heq
    have hdev : s.device ≠ .null → s.device = .valid := fun hne => h.device.resolve_right hne
    refine ⟨fun hpc => ?_, fun huses => ?_⟩
    · rcases hst.past hpc with hpc' | ⟨-, hne⟩
      · exact hvalid _ ((h.live q c o pc hp).1 hpc')
      · exact hvalid _ (h.pointers (hdev hne) _)
    · rcases htest hst huses with huses' | ⟨-, hne⟩
      · exact (h.live q c o pc hp).2 huses'
      · exact hdev hne
  · exact ⟨fun hpc => hvalid _ ((h.live q c' o' pc' hold).1 hpc), (h.live q c' o' pc' hold).2⟩

/-- **Nothing else takes the pointers away**: a step that does not clear the device under a call that
counts on it keeps the invariant. -/
theorem attached_step {S : Setup} {uses : Pc → Bool} (hpast : ∀ pc, uses pc = true → pc.past = true)
    (htest : ∀ {device : Ptr} {p : Pid} {e : Event} {f f' : Frame Pid},
      Statement device p e f f' → uses f'.pc = true →
        uses f.pc = true ∨ f.pc = .testDevice ∧ device ≠ .null)
    {s s' : State Pid} {act : Act Pid} {out : List (Output Pid)} (h : Attached uses s)
    (hclear : NotCleared uses s act) (hstep : step S s act = some (s', out)) :
    Attached uses s' := by
  have hlocked := locked_step h.locked hstep
  -- a process that is not inside a critical section counts on nothing
  have hmove : ∀ {p : Pid} {x : Proc}, (∀ c o pc, x = .call c o pc → pc.past = false) →
      s'.proc = Function.update s.proc p x → ∀ q c o pc, s'.proc q = .call c o pc →
        s.proc q = .call c o pc ∨ pc.past = false ∧ uses pc = false := by
    intro p x hx hproc q c o pc hq
    rw [hproc] at hq
    rcases setProc_eq_call (s := s) hq with ⟨-, rfl⟩ | ⟨-, hold⟩
    · have hpc := hx c o pc rfl
      refine .inr ⟨hpc, ?_⟩
      by_contra huses
      rw [hpast pc (by simpa using huses)] at hpc
      cases hpc
    · exact .inl hold
  cases stepped_of_step hstep with
  | stays hs' => exact hs' ▸ h
  | opens hmtx hcount hs' =>
    subst hs'
    exact h.mono hlocked rfl rfl (fun _ hv => hv) fun _ _ _ _ hq => .inl hq
  | starts p c hp hopen hs' =>
    subst hs'
    exact h.mono hlocked rfl rfl (fun _ hv => hv)
      (hmove (fun _ _ _ heq => by cases heq; rfl) rfl)
  | startsRelease p hp hopen hin hs' =>
    subst hs'
    exact h.mono hlocked rfl rfl (fun _ hv => hv)
      (hmove (x := .release .lock) (fun _ _ _ heq => nomatch heq) rfl)
  | calls p c o pc e f hact hp hst hs' =>
    subst hs'
    exact h.call htest hp hst hlocked
  | returns p c o ret user advance hp hs' =>
    subst hs'
    exact h.mono hlocked rfl rfl (fun _ hv => hv)
      (hmove (x := .user) (fun _ _ _ heq => nomatch heq) rfl)
  | releases p pc hp hst =>
    obtain ⟨hplan, hdevice, ⟨pc', hproc⟩, hchan⟩ := hst.frame
    refine h.mono hlocked hplan hdevice (fun d hv => ?_)
      (hmove (x := .release pc') (fun _ _ _ heq => nomatch heq) hproc)
    obtain ⟨-, hendpoint, hurb, hbuffer⟩ := hchan d
    unfold Channel.Valid
    rwa [hendpoint, hurb, hbuffer]
  | released p ret hp hs' =>
    subst hs'
    exact h.mono hlocked rfl rfl (fun _ hv => hv)
      (hmove (x := .user) (fun _ _ _ heq => nomatch heq) rfl)
  | completes d status bytes hflight hs' =>
    subst hs'
    refine h.mono hlocked rfl rfl (fun d' hv => ?_) fun _ _ _ _ hq => .inl hq
    exact setChan_keeps (P := fun _ => Channel.Valid) (fun hv => hv) hv
  | unplugs stmt rest t hact hplan hstmt hs' =>
    subst hs'
    exact h.unplug hplan (fun hstmt => hclear hact rest (hstmt ▸ hplan)) hstmt

/-- Where the device is cleared under a call that counts on it, that call has lost it. -/
theorem notCleared_of_live {S : Setup} {uses : Pc → Bool} {s s' : State Pid} {act : Act Pid}
    {out : List (Output Pid)} (hstep : step S s act = some (s', out)) (hlive : Live uses s') :
    NotCleared uses s act := by
  rintro rfl rest hplan p c o pc hp
  simp only [step, hplan, unplugStep, Option.map_some, Option.some.injEq, Prod.mk.injEq] at hstep
  obtain ⟨rfl, -⟩ := hstep
  by_contra huses
  cases (hlive p c o pc hp).2 (by simpa using huses)

/-- **When hot-unplug is safe.** In every run of calls and of `example_disconnect`, statement by
statement, the pointers of a call stay valid from its test of `example_usb_device` to its unlock
exactly when `example_usb_device = NULL` is never executed while a call stands between these two. They
stay valid as long as the call still uses them exactly when it is not executed between the test and
`usb_fill_int_urb`. -/
theorem live_iff_not_cleared {S : Setup} {heap : Direction → Memory UInt8} {acts : List (Act Pid)}
    {s : State Pid} {log : List (Output Pid)}
    (hrun : (system S Pid).exec (init Pid heap (exampleDisconnect S.version)) acts =
      some (s, log)) :
    ((system S Pid).Always (Live Pc.past) (init Pid heap (exampleDisconnect S.version)) acts ↔
      (system S Pid).Along (NotCleared Pc.past) (init Pid heap (exampleDisconnect S.version))
        acts) ∧
    ((system S Pid).Always (Live Pc.usesDevice) (init Pid heap (exampleDisconnect S.version))
        acts ↔
      (system S Pid).Along (NotCleared Pc.usesDevice)
        (init Pid heap (exampleDisconnect S.version)) acts) := by
  constructor
  · exact System.always_iff_along (J := Attached Pc.past) (Q := Live Pc.past) (fun _ h => h.live)
      (fun _ _ _ _ h hclear hstep =>
        attached_step (fun _ hpc => hpc) (fun hst => hst.past) h hclear hstep)
      (fun _ _ _ _ hstep hlive => notCleared_of_live hstep hlive) (attached_init _ heap) hrun
  · exact System.always_iff_along (J := Attached Pc.usesDevice) (Q := Live Pc.usesDevice)
      (fun _ h => h.live)
      (fun _ _ _ _ h hclear hstep =>
        attached_step (fun _ hpc => Pc.past_of_usesDevice hpc) (fun hst => hst.usesDevice) h hclear
          hstep)
      (fun _ _ _ _ hstep hlive => notCleared_of_live hstep hlive) (attached_init _ heap) hrun

end Update

/-- A read is served; then the device is unplugged. -/
def unplugAfterRead : List (Act Unit) :=
  Act.enters () (.read ⟨0, 64, 64⟩) 6 ++ .proc () (.submit 0) ::
    .complete .input 0 [1, 2, 3, 4, 5, 6, 7, 8] :: List.replicate 7 (.proc () .run) ++
    List.replicate 16 .unplug

/-- It was safe. -/
theorem live_iff_not_cleared_afterRead :
    ∃ (s : State Unit) (log : List (Output Unit)),
      (system (demo .vii05) Unit).exec (init Unit (fun _ _ => 0) (exampleDisconnect .vii05))
        unplugAfterRead = some (s, log) ∧
      s.device = .null ∧
      (system (demo .vii05) Unit).Always (Live Pc.past)
        (init Unit (fun _ _ => 0) (exampleDisconnect .vii05)) unplugAfterRead := by
  obtain ⟨⟨s, log⟩, hrun, hval⟩ := Option.map_eq_some_iff.1
    (show ((system (demo .vii05) Unit).exec (init Unit (fun _ _ => 0) (exampleDisconnect .vii05))
      unplugAfterRead).map (fun r => r.1.device) = some .null by decide +kernel)
  have hclear : (system (demo .vii05) Unit).Along (NotCleared Pc.past)
      (init Unit (fun _ _ => 0) (exampleDisconnect .vii05)) unplugAfterRead := by decide +kernel
  exact ⟨s, log, hrun, hval, (live_iff_not_cleared (S := demo .vii05) hrun).1.2 hclear⟩

/-- A read has passed its test when the device is unplugged; it goes on to `usb_fill_int_urb`. -/
def unplugAfterTest : List (Act ℕ) :=
  Act.enters 0 (.read ⟨0, 64, 64⟩) 3 ++ [.unplug, .unplug, .proc 0 .run, .proc 0 .run]

/-- There `example_usb_device`, which it is about to follow, is `NULL`. -/
theorem device_cleared_in_use :
    ∃ (s : State ℕ) (log : List (Output ℕ)),
      (system (demo .vii05) ℕ).exec (init ℕ (fun _ _ => 0) (exampleDisconnect .vii05))
        unplugAfterTest = some (s, log) ∧
      (s.proc 0).place = some (.input, .fill) ∧ s.device = .null ∧
      ¬ (system (demo .vii05) ℕ).Always (Live Pc.past)
        (init ℕ (fun _ _ => 0) (exampleDisconnect .vii05)) unplugAfterTest ∧
      ¬ (system (demo .vii05) ℕ).Always (Live Pc.usesDevice)
        (init ℕ (fun _ _ => 0) (exampleDisconnect .vii05)) unplugAfterTest := by
  obtain ⟨⟨s, log⟩, hrun, hval⟩ := Option.map_eq_some_iff.1
    (show ((system (demo .vii05) ℕ).exec (init ℕ (fun _ _ => 0) (exampleDisconnect .vii05))
      unplugAfterTest).map (fun r => ((r.1.proc 0).place, r.1.device)) =
        some (some (.input, .fill), .null) by decide +kernel)
  obtain ⟨hplace, hdevice⟩ := Prod.mk.inj hval
  obtain ⟨c, o, hp, -⟩ := Proc.eq_call_of_place hplace
  refine ⟨s, log, hrun, hplace, hdevice, fun halways => ?_, fun halways => ?_⟩
  · cases hdevice.symm.trans ((halways.last hrun 0 c o .fill hp).2 rfl)
  · cases hdevice.symm.trans ((halways.last hrun 0 c o .fill hp).2 rfl)

end IldDrivers.ExampleVII
