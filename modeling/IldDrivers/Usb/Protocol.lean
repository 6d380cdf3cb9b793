import IldDrivers.Usb.Files

/-!
# The URB protocol

`busy` is to be nonzero while the URB of the direction is in flight, so that nobody changes the
buffer, fills the URB or submits it then (`Protocol`). The callback clears `busy` when the transfer is
over, and two of the exits of a call clear it where it is over or has not begun; the exit taken on
a signal in the second wait clears it while the transfer still runs.

* `protocol_iff_not_abandoned`: the protocol is kept exactly in the runs in which no call takes that
  exit before its URB has completed;
* `abandoned_then_refilled`: a run in which one does.
-/

namespace IldDrivers.ExampleVII

variable {Pid : Type*}

/-- While a URB is in flight, `busy` says so and no process is at a statement that changes the
buffer, fills the URB or submits it. -/
def Protocol (s : State Pid) : Prop :=
  ∀ d, (s.chan d).inFlight = true →
    (s.chan d).busy ≠ 0 ∧
      ∀ p c o pc, s.proc p = .call c o pc → c.dir = d → pc.touchesUrb = false

/-- If the step executes `busy = 0` on the way out after a signal, the URB has completed. -/
def NotAbandoned (s : State Pid) (act : Act Pid) : Prop :=
  ∀ p c o ret, act = .proc p .run → s.proc p = .call c o (.clearBusy .signal ret) →
    (s.chan c.dir).inFlight = false

/-- Whether a call abandons its URB in this step. -/
def abandons (s : State Pid) : Act Pid → Bool
  | .proc p .run =>
      match s.proc p with
      | .call c _ (.clearBusy .signal _) => (s.chan c.dir).inFlight
      | _ => false
  | _ => false

theorem notAbandoned_of_abandons {s : State Pid} {act : Act Pid} (h : abandons s act = false) :
    NotAbandoned s act := by
  rintro p c o ret rfl hp
  simpa only [abandons, hp] using h

/-- What a call at `pc` knows about its direction. -/
def Facts (ch : Channel Pid) (pc : Pc) : Prop :=
  (pc.quiet = true → ch.inFlight = false) ∧ (pc.touchesUrb = true → ch.busy ≠ 0)

theorem Pc.holds_of_quiet {pc : Pc} (h : pc.quiet = true) : pc.holds = true := by
  cases pc <;> first | rfl | cases h

theorem Pc.quiet_of_touchesUrb {pc : Pc} (h : pc.touchesUrb = true) : pc.quiet = true := by
  cases pc <;> first | rfl | cases h

theorem facts_of_not_quiet {ch : Channel Pid} {pc : Pc} (h : pc.quiet = false) : Facts ch pc :=
  ⟨fun hpc => absurd (h.symm.trans hpc) Bool.false_ne_true,
    fun hpc => absurd (h.symm.trans (Pc.quiet_of_touchesUrb hpc)) Bool.false_ne_true⟩

theorem facts_of_not_holds {ch : Channel Pid} {pc : Pc} (h : pc.holds = false) : Facts ch pc := by
  apply facts_of_not_quiet
  by_contra hpc
  rw [Pc.holds_of_quiet (by simpa using hpc)] at h
  cases h

/-- The invariant. -/
structure Flying (s : State Pid) : Prop where
  locked : Locked s
  files : Files s
  plugged : s.unplug = []
  urb : ∀ d, (s.chan d).urb = .valid
  busy : ∀ d, (s.chan d).inFlight = true → (s.chan d).busy ≠ 0
  facts : ∀ p c o pc, s.proc p = .call c o pc → Facts (s.chan c.dir) pc
  /-- `example_release` clears `example_out_busy` only when the URB has completed or is killed. -/
  released : ∀ p, s.proc p = .release .clearBusy → (s.chan .output).inFlight = false

theorem Flying.protocol {s : State Pid} (h : Flying s) : Protocol s := by
  intro d hflight
  refine ⟨h.busy d hflight, fun p c o pc hp hd => ?_⟩
  by_contra hpc
  have hquiet := (h.facts p c o pc hp).1 (Pc.quiet_of_touchesUrb (by simpa using hpc))
  rw [hd, hflight] at hquiet
  cases hquiet

/-- A statement of a call keeps what is known about the direction, unless it abandons the URB. -/
theorem Statement.flying {device : Ptr} {p : Pid} {e : Event} {f f' : Frame Pid}
    (h : Statement device p e f f') (hbusy : f.ch.inFlight = true → f.ch.busy ≠ 0)
    (hfacts : Facts f.ch f.pc)
    (habandon : e = .run → ∀ ret, f.pc = .clearBusy .signal ret → f.ch.inFlight = false) :
    (f'.ch.inFlight = true → f'.ch.busy ≠ 0) ∧ Facts f'.ch f'.pc := by
  cases h with
  | outside hpc hpc' hch | unlocks hpc hpc' hch =>
    rw [hch]
    exact ⟨hbusy, facts_of_not_holds hpc'⟩
  | locks hpc hfree hpc' hch =>
    rw [hch]
    exact ⟨hbusy, facts_of_not_quiet (by rw [hpc']; rfl)⟩
  | goes hpc hpc' hch hquiet htouch _ _ =>
    rw [hch]
    refine ⟨hbusy, fun hq => ?_, fun ht => hfacts.2 (htouch ht)⟩
    rcases hquiet hq with hold | hidle
    · exact hfacts.1 hold
    · by_contra hflight
      exact hbusy (by simpa using hflight) hidle
  | marks hpc hpc' hch =>
    rw [hch]
    have hflight := hfacts.1 (by rw [hpc]; rfl)
    exact ⟨fun _ => one_ne_zero, fun _ => hflight, fun _ => one_ne_zero⟩
  | stores i hpc hpc' hch =>
    obtain ⟨bytes, hch⟩ := hch
    rw [hch]
    have hflight := hfacts.1 (by rw [hpc]; rfl)
    have hmarked := hfacts.2 (by rw [hpc]; rfl)
    exact ⟨hbusy, fun _ => hflight, fun _ => hmarked⟩
  | submits he hpc hidle hpc' hch =>
    -- `busy = 1` was executed on the way here
    rw [hch]
    have hmarked := hfacts.2 (by rw [hpc]; rfl)
    exact ⟨fun _ => hmarked, facts_of_not_quiet (by rw [hpc']; rfl)⟩
  | clears site ret he hpc hpc' hch =>
    rw [hch]
    -- two of the exits come after the transfer; the third one is the condition
    have hflight : f.ch.inFlight = false := by
      cases site with
      | submit | status => exact hfacts.1 (by rw [hpc]; rfl)
      | signal => exact habandon he ret hpc
    exact ⟨fun hfly => absurd (hflight.symm.trans hfly) Bool.false_ne_true,
      facts_of_not_quiet (by rw [hpc']; rfl)⟩

/-- A call outside the critical section does not touch its URB. -/
theorem Statement.facts_other {device : Ptr} {p : Pid} {e : Event} {f f' : Frame Pid}
    (h : Statement device p e f f') (hpc : f.pc.holds = false) :
    f'.ch.inFlight = f.ch.inFlight ∧ f'.ch.busy = f.ch.busy := by
  cases h with
  | outside _ _ hch | locks _ _ _ hch =>
    rw [hch]
    exact ⟨rfl, rfl⟩
  | unlocks hpc' | goes hpc' =>
    rw [hpc] at hpc'
    cases hpc'
  | marks hpc' | stores _ hpc' | submits _ hpc' | clears _ _ _ hpc' =>
    rw [hpc'] at hpc
    cases hpc

theorem flying_init (heap : Direction → Memory UInt8) : Flying (init Pid heap []) where
  locked := locked_init heap trivial fun _ => rfl
  files := files_init heap []
  plugged := rfl
  urb _ := rfl
  busy d h := by cases h
  facts p c o pc h := by cases h
  released p h := by cases h

/-- The completion of a URB. -/
theorem Flying.complete {s : State Pid} (h : Flying s) {d : Direction} {status : ℤ}
    {bytes : Memory UInt8} (hflight : (s.chan d).inFlight = true)
    (hlocked : Locked (s.setChan d ((s.chan d).complete status bytes)))
    (hfiles : Files (s.setChan d ((s.chan d).complete status bytes))) :
    Flying (s.setChan d ((s.chan d).complete status bytes)) := by
  -- a URB that is in flight afterwards is that of the other direction
  have hdone : ∀ d', ((s.setChan d ((s.chan d).complete status bytes)).chan d').inFlight = true →
      d' ≠ d ∧ (s.chan d').inFlight = true := by
    intro d' hfly
    by_cases hd : d' = d
    · subst hd
      rw [setChan_self] at hfly
      cases hfly
    · rw [setChan_of_ne hd] at hfly
      exact ⟨hd, hfly⟩
  refine ⟨hlocked, hfiles, h.plugged, fun d' => ?_, fun d' hfly => ?_, fun p c o pc hp => ?_,
    fun p hp => ?_⟩
  · exact setChan_keeps (P := fun _ ch => ch.urb = .valid) (fun hurb => hurb) (h.urb d')
  · obtain ⟨hd, hold⟩ := hdone d' hfly
    rw [setChan_of_ne hd]
    exact h.busy d' hold
  · by_cases hd : c.dir = d
    · -- the URB was in flight, so no call of its direction is where `busy` must stay
      subst hd
      apply facts_of_not_quiet
      by_contra hpc
      have hquiet := (h.facts p c o pc hp).1 (by simpa using hpc)
      exact Bool.false_ne_true (hquiet.symm.trans hflight)
    · rw [setChan_of_ne hd]
      exact h.facts p c o pc hp
  · by_contra hfly
    obtain ⟨-, hold⟩ := hdone .output (by simpa using hfly)
    exact Bool.false_ne_true ((h.released p hp).symm.trans hold)

/-- What another call knows about `busy` and the URB of its direction survives a statement of process
`p`, if it knows nothing outside the critical section. -/
theorem Locked.keeps_other {K : Channel Pid → Pc → Prop}
    (hout : ∀ {ch : Channel Pid} {pc : Pc}, pc.holds = false → K ch pc)
    (hsame : ∀ {ch ch' : Channel Pid} {pc : Pc}, ch'.inFlight = ch.inFlight → ch'.busy = ch.busy →
      K ch pc → K ch' pc)
    {s : State Pid} (h : Locked s) {p q : Pid} {c c' : Call} {o o' : Fin 8 → ℤ} {pc pc' : Pc}
    {e : Event} {f : Frame Pid} (hp : s.proc p = .call c o pc)
    (hst : Statement s.device p e ⟨s.chan c.dir, s.kBuffer, o, pc⟩ f) (hne : q ≠ p)
    (hq : s.proc q = .call c' o' pc') (hold : K (s.chan c'.dir) pc') :
    K ((s.setChan c.dir f.ch).chan c'.dir) pc' := by
  by_cases hd : c'.dir = c.dir
  · rw [hd, setChan_self]
    rw [hd] at hold
    by_cases hpc : pc.holds = true
    · -- `p` holds the mutex of this direction, and `q` does not
      apply hout
      by_contra hpc'
      exact hne (h.unique hp hpc hq (by simpa using hpc') hd)
    · obtain ⟨hflight, hbusy⟩ := hst.facts_other (by simpa using hpc)
      exact hsame hflight hbusy hold
  · rw [setChan_of_ne hd]
    exact hold

theorem Facts.congr {ch ch' : Channel Pid} {pc : Pc} (hflight : ch'.inFlight = ch.inFlight)
    (hbusy : ch'.busy = ch.busy) (h : Facts ch pc) : Facts ch' pc := by
  unfold Facts
  rw [hflight, hbusy]
  exact h

section Update

variable [DecidableEq Pid]

/-- A process moves to a place where nothing is known about the URB; the URBs and `busy` stay as they
are. -/
theorem Flying.move {s s' : State Pid} (h : Flying s) (hlocked : Locked s') (hfiles : Files s')
    {p : Pid} {x : Proc} (hplan : s'.unplug = s.unplug) (hchan : s'.chan = s.chan)
    (hproc : s'.proc = Function.update s.proc p x)
    (hcall : ∀ c o pc, x = .call c o pc → pc.holds = false)
    (hrelease : x = .release .clearBusy → (s.chan .output).inFlight = false) : Flying s' where
  locked := hlocked
  files := hfiles
  plugged := hplan.trans h.plugged
  urb := hchan ▸ h.urb
  busy := hchan ▸ h.busy
  facts q c o pc hq := by
    rw [hproc] at hq
    rw [hchan]
    rcases setProc_eq_call (s := s) hq with ⟨-, rfl⟩ | ⟨-, hold⟩
    · exact facts_of_not_holds (hcall c o pc rfl)
    · exact h.facts q c o pc hold
  released q hq := by
    rw [hproc] at hq
    rw [hchan]
    rcases setProc_eq_release (s := s) hq with ⟨-, heq⟩ | ⟨-, hold⟩
    · exact hrelease heq
    · exact h.released q hold

/-- `example_release` leaves a URB that is not in flight; nobody is inside a call. -/
theorem Flying.quit {s : State Pid} (h : Flying s) {p : Pid} {pc x : ReleasePc}
    {ch : Channel Pid} (hp : s.proc p = .release pc) (hpc : pc.counts = true)
    (hlocked : Locked ((s.setChan .output ch).setProc p (.release x)))
    (hfiles : Files ((s.setChan .output ch).setProc p (.release x))) (hurb : ch.urb = .valid)
    (hflight : ch.inFlight = false) :
    Flying ((s.setChan .output ch).setProc p (.release x)) where
  locked := hlocked
  files := hfiles
  plugged := h.plugged
  urb d := by
    cases d with
    | output => exact hurb
    | input => exact h.urb .input
  busy d hfly := by
    cases d with
    | output => exact absurd (hflight.symm.trans hfly) Bool.false_ne_true
    | input => exact h.busy .input hfly
  facts q c o pc' hq := by
    rcases setProc_eq_call hq with ⟨-, heq⟩ | ⟨-, hold⟩
    · cases heq
    · exact absurd hold (h.files.no_call hp hpc)
  released _ _ := hflight

/-- A statement of `example_release`. -/
theorem Flying.release {s s' : State Pid} (h : Flying s) (hlocked : Locked s') (hfiles : Files s')
    {p : Pid} {pc : ReleasePc} (hp : s.proc p = .release pc) (hst : ReleaseStatement s p pc s') :
    Flying s' := by
  cases hst with
  | givesUp _ hs' | decrements _ hs' | unlocks _ hs' =>
    subst hs'
    exact h.move hlocked hfiles rfl rfl rfl (fun _ _ _ heq => nomatch heq) fun heq => nomatch heq
  | locks pc' _ _ hpc' hs' =>
    subst hs'
    refine h.move hlocked hfiles rfl rfl rfl (fun _ _ _ heq => nomatch heq) fun heq => ?_
    cases heq
    rcases hpc' with hpc' | hpc' <;> cases hpc'
  | looks pc' _ _ hidle hs' =>
    subst hs'
    refine h.move hlocked hfiles rfl rfl rfl (fun _ _ _ heq => nomatch heq) fun heq => ?_
    cases heq
    by_contra hflight
    exact h.busy .output (by simpa using hflight) (hidle rfl)
  | kills ch hpc _ hch hs' =>
    subst hpc hs'
    rcases hch with ⟨rfl, hflight⟩ | rfl
    · exact h.quit hp rfl hlocked hfiles (h.urb .output) (hflight (h.urb .output))
    · exact h.quit hp rfl hlocked hfiles (h.urb .output) rfl
  | clears hpc hs' =>
    subst hpc hs'
    exact h.quit hp rfl hlocked hfiles (h.urb .output) (h.released p hp)

/-- A statement of a call, one that does not abandon its URB. -/
theorem Flying.call {s : State Pid} (h : Flying s) {p : Pid} {c : Call} {o : Fin 8 → ℤ} {pc : Pc}
    {e : Event} {f : Frame Pid} (hp : s.proc p = .call c o pc)
    (hst : Statement s.device p e ⟨s.chan c.dir, s.kBuffer, o, pc⟩ f)
    (habandon : e = .run → ∀ ret, pc = .clearBusy .signal ret → (s.chan c.dir).inFlight = false)
    (hlocked : Locked (s.setFrame p c f))
    (hfiles : Files (s.setFrame p c f)) :
    Flying (s.setFrame p c f) := by
  obtain ⟨hbusy, hfacts⟩ := hst.flying (h.busy c.dir) (h.facts p c o pc hp) habandon
  refine ⟨hlocked, hfiles, h.plugged, fun d => ?_, fun d hfly => ?_, fun q c' o' pc' hq => ?_,
    fun q hq => ?_⟩
  · exact setChan_keeps (P := fun _ ch => ch.urb = .valid)
      (fun hurb => hst.pointers.2.1.trans hurb) (h.urb d)
  · change ((s.setChan c.dir f.ch).chan d).inFlight = true at hfly
    change ((s.setChan c.dir f.ch).chan d).busy ≠ 0
    by_cases hd : d = c.dir
    · subst hd
      rw [setChan_self] at hfly ⊢
      exact hbusy hfly
    · rw [setChan_of_ne hd] at hfly ⊢
      exact h.busy d hfly
  · change Facts ((s.setChan c.dir f.ch).chan c'.dir) pc'
    rcases setProc_eq_call hq with ⟨-, heq⟩ | ⟨hne, hold⟩
    · cases heq
      rw [setChan_self]
      exact hfacts
    · exact h.locked.keeps_other facts_of_not_holds Facts.congr hp hst hne hold
        (h.facts q c' o' pc' hold)
  · -- no release is under way while `p` is inside a call
    rcases setProc_eq_release hq with ⟨-, heq⟩ | ⟨-, hold⟩
    · cases heq
    · exact absurd hp (h.files.no_call hold rfl)

/-- **The protocol**, one step: a step that does not abandon a URB keeps the invariant. -/
theorem flying_step {S : Setup} {s s' : State Pid} {act : Act Pid} {out : List (Output Pid)}
    (h : Flying s) (habandon : NotAbandoned s act) (hstep : step S s act = some (s', out)) :
    Flying s' := by
  have hlocked := locked_step h.locked hstep
  have hfiles := files_step h.files hstep
  cases stepped_of_step hstep with
  | stays hs' => exact hs' ▸ h
  | opens hmtx hcount hs' =>
    subst hs'
    exact ⟨hlocked, hfiles, h.plugged, h.urb, h.busy, h.facts, h.released⟩
  | starts p c hp hopen hs' =>
    subst hs'
    exact h.move hlocked hfiles rfl rfl rfl (fun _ _ _ heq => by cases heq; rfl)
      fun heq => nomatch heq
  | startsRelease p hp hopen hin hs' =>
    subst hs'
    exact h.move hlocked hfiles rfl rfl rfl (x := .release .lock) (fun _ _ _ heq => nomatch heq)
      fun heq => nomatch heq
  | calls p c o pc e f hact hp hst hs' =>
    subst hs'
    refine h.call hp hst (fun he ret hpc => ?_) hlocked hfiles
    exact habandon p c o ret (by rw [hact, he]) (by rw [hp, hpc])
  | returns p _ _ _ _ _ _ hs' | released p _ _ hs' =>
    subst hs'
    exact h.move hlocked hfiles rfl rfl rfl (x := .user) (fun _ _ _ heq => nomatch heq)
      fun heq => nomatch heq
  | releases p pc hp hst => exact h.release hlocked hfiles hp hst
  | completes d status bytes hflight hs' =>
    subst hs'
    exact h.complete hflight hlocked hfiles
  | unplugs stmt rest t hact hplan hstmt hs' =>
    -- the device stays plugged
    rw [h.plugged] at hplan
    cases hplan

/-- A call that abandons its URB leaves `busy` at 0 while the URB is in flight. -/
theorem notAbandoned_of_protocol {S : Setup} {s s' : State Pid} {act : Act Pid}
    {out : List (Output Pid)} (hstep : step S s act = some (s', out)) (h : Protocol s') :
    NotAbandoned s act := by
  rintro p c o ret rfl hp
  by_contra hflight
  simp only [step, hp, procStep, callStep, runStep, Option.map_some, Option.some.injEq,
    Prod.mk.injEq] at hstep
  obtain ⟨rfl, -⟩ := hstep
  have hchan : ((s.setChan c.dir { s.chan c.dir with busy := 0 }).chan c.dir).inFlight = true := by
    rw [setChan_self]
    simpa using hflight
  have hbusy := (h c.dir hchan).1
  change ((s.setChan c.dir { s.chan c.dir with busy := 0 }).chan c.dir).busy ≠ 0 at hbusy
  rw [setChan_self] at hbusy
  exact hbusy rfl

/-- **When the URB protocol is kept.** In every run of calls, releases, completions, timeouts and
signals, a URB in flight has its `busy` set and no process is about to change its buffer, fill it or
submit it, exactly when no call executes the `busy = 0` of its exit after a signal while its URB is
in flight. -/
theorem protocol_iff_not_abandoned {S : Setup} {heap : Direction → Memory UInt8}
    {acts : List (Act Pid)} {s : State Pid} {log : List (Output Pid)}
    (hrun : (system S Pid).exec (init Pid heap []) acts = some (s, log)) :
    (system S Pid).Always Protocol (init Pid heap []) acts ↔
      (system S Pid).Along NotAbandoned (init Pid heap []) acts :=
  System.always_iff_along (J := Flying) (Q := Protocol) (fun _ h => h.protocol)
    (fun _ _ _ _ h habandon hstep => flying_step h habandon hstep)
    (fun _ _ _ _ hstep h => notAbandoned_of_protocol hstep h) (flying_init heap) hrun

end Update

/-- The text that `demo` knows, as the user passes it. -/
def demoWrite : Call :=
  .write ⟨[49, 32, 50, 32, 51, 32, 52, 32, 53, 32, 54, 32, 55, 32, 56, 0], some fun _ => 0, 16⟩

/-- A write that is served. -/
def writeServed : List (Act ℕ) :=
  Act.enters 0 demoWrite 14 ++ [.proc 0 (.submit 0), .proc 0 .run, .complete .output 0 []] ++
    List.replicate 5 (.proc 0 .run)

/-- It keeps the protocol. -/
theorem protocol_iff_not_abandoned_writeServed :
    ∃ (s : State ℕ) (log : List (Output ℕ)),
      (system (demo .vii05) ℕ).exec (init ℕ (fun _ _ => 0) []) writeServed = some (s, log) ∧
      log = [.returned 0 0 [] 0, .returned 0 16 [] 0] ∧
      (system (demo .vii05) ℕ).Always Protocol (init ℕ (fun _ _ => 0) []) writeServed := by
  obtain ⟨⟨s, log⟩, hrun, hval⟩ := Option.map_eq_some_iff.1
    (show ((system (demo .vii05) ℕ).exec (init ℕ (fun _ _ => 0) []) writeServed).map
      (fun r => r.2) = some [.returned 0 0 [] 0, .returned 0 16 [] 0] by decide +kernel)
  have hkept : (system (demo .vii05) ℕ).Along (fun s act => abandons s act = false)
      (init ℕ (fun _ _ => 0) []) writeServed := by decide +kernel
  exact ⟨s, log, hrun, hval,
    (protocol_iff_not_abandoned hrun).2 (hkept.mono fun _ _ => notAbandoned_of_abandons)⟩

/-- A signal ends the second wait of a write; another process begins to write. -/
def writeAfterSignal : List (Act ℕ) :=
  Act.enters 0 demoWrite 14 ++
    [.proc 0 (.submit 0), .proc 0 .run, .proc 0 .signal, .proc 0 .run, .proc 0 .run, .proc 0 .run] ++
    .start 1 demoWrite :: List.replicate 6 (.proc 1 .run)

/-- The URB of the first write is in flight when the second one changes the buffer. -/
def ChangesInFlight (v : Version) : Prop :=
  ∃ (s : State ℕ) (log : List (Output ℕ)),
    (system (demo v) ℕ).exec (init ℕ (fun _ _ => 0) []) writeAfterSignal = some (s, log) ∧
    (s.chan .output).inFlight = true ∧ (∃ i, (s.proc 1).place = some (.output, .store i)) ∧
    ¬ (system (demo v) ℕ).Always Protocol (init ℕ (fun _ _ => 0) []) writeAfterSignal

theorem changesInFlight (v : Version) : ChangesInFlight v := by
  obtain ⟨⟨s, log⟩, hrun, hval⟩ := Option.map_eq_some_iff.1
    (show ((system (demo v) ℕ).exec (init ℕ (fun _ _ => 0) []) writeAfterSignal).map
      (fun r => ((r.1.chan .output).inFlight, (r.1.proc 1).place)) =
        some (true, some (.output, .store 1)) by cases v <;> decide +kernel)
  obtain ⟨hflight, hplace⟩ := Prod.mk.inj hval
  refine ⟨s, log, hrun, hflight, ⟨1, hplace⟩, fun halways => ?_⟩
  obtain ⟨c, o, hp, hd⟩ := Proc.eq_call_of_place hplace
  cases (halways.last hrun .output hflight).2 1 c o _ hp hd

/-- Both programs allow this. -/
theorem abandoned_then_refilled : ChangesInFlight .vii05 ∧ ChangesInFlight .vii04 :=
  ⟨changesInFlight .vii05, changesInFlight .vii04⟩

end IldDrivers.ExampleVII
