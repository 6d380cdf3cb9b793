import IldDrivers.Lib.Mutex
import IldDrivers.Usb.Statements

/-!
# The mutexes of the USB drivers

The mutex of a direction is held by the one process, or by `example_disconnect`, that stands between
its lock and its unlock (`Locked`); every step keeps it so (`locked_step`). What is left of
`example_disconnect` has to keep to the rules (`Disciplined`): it touches the pointers of a direction
only with the mutex held, and after `example_usb_device = NULL`.
-/

namespace IldDrivers.ExampleVII

variable {Pid : Type*}

/-- Before these statements the hub holds the mutex of `d`: the next of them about that mutex is
an unlock. -/
def hubHolds : List UnplugStmt → Direction → Bool
  | [], _ => false
  | .lock d' :: rest, d => d' != d && hubHolds rest d
  | .unlock d' :: rest, d => d' == d || hubHolds rest d
  | _ :: rest, d => hubHolds rest d

/-- The statements keep to the rules. -/
def Disciplined : List UnplugStmt → Prop
  | [] => True
  | stmt :: rest =>
      ((∀ d, stmt = .unlock d → hubHolds rest d = false) ∧
        ∀ d, stmt.touches = some d → hubHolds rest d = true ∧ .clearDevice ∉ rest) ∧
      Disciplined rest

theorem disciplined_exampleDisconnect (v : Version) : Disciplined (exampleDisconnect v) := by
  cases v <;> simp [Disciplined, exampleDisconnect, UnplugStmt.touches, hubHolds]

/-- Who stands in a critical section of direction `d`. -/
def State.Inside (s : State Pid) (d : Direction) : Holder Pid → Prop
  | .proc p => ∃ c o pc, s.proc p = .call c o pc ∧ c.dir = d ∧ pc.holds = true
  | .hub => hubHolds s.unplug d = true

structure Locked (s : State Pid) : Prop where
  plan : Disciplined s.unplug
  excludes : ∀ d, Excludes (s.chan d).mtx (s.Inside d)

/-- The mutex of a call that stands between its lock and its unlock. -/
theorem Locked.holder {s : State Pid} (h : Locked s) {p : Pid} {c : Call} {o : Fin 8 → ℤ} {pc : Pc}
    (hp : s.proc p = .call c o pc) (hpc : pc.holds = true) :
    (s.chan c.dir).mtx = some (.proc p) :=
  h.excludes c.dir (.proc p) ⟨c, o, pc, hp, rfl, hpc⟩

/-- At most one call of a direction stands there. -/
theorem Locked.unique {s : State Pid} (h : Locked s) {p q : Pid} {c c' : Call}
    {o o' : Fin 8 → ℤ} {pc pc' : Pc} (hp : s.proc p = .call c o pc) (hpc : pc.holds = true)
    (hq : s.proc q = .call c' o' pc') (hpc' : pc'.holds = true) (hd : c'.dir = c.dir) : q = p := by
  have heq : Holder.proc q = Holder.proc p :=
    (h.excludes c.dir).unique ⟨c', o', pc', hq, hd, hpc'⟩ ⟨c, o, pc, hp, rfl, hpc⟩
  exact Holder.proc.inj heq

/-- Nobody enters a critical section and no mutex changes hands. -/
theorem Locked.mono {s s' : State Pid} (h : Locked s) (hplan : s'.unplug = s.unplug)
    (hmtx : ∀ d, (s'.chan d).mtx = (s.chan d).mtx)
    (hproc : ∀ q c o pc, s'.proc q = .call c o pc → pc.holds = true →
      s.proc q = .call c o pc) : Locked s' where
  plan := hplan ▸ h.plan
  excludes d := by
    rw [hmtx]
    refine (h.excludes d).mono fun k hk => ?_
    cases k with
    | proc q =>
      obtain ⟨c, o, pc, hq, hd, hpc⟩ := hk
      exact ⟨c, o, pc, hproc q c o pc hq hpc, hd, hpc⟩
    | hub =>
      change hubHolds s'.unplug d = true at hk
      rwa [hplan] at hk

theorem locked_init (heap : Direction → Memory UInt8) {unplug : List UnplugStmt}
    (hplan : Disciplined unplug) (hhub : ∀ d, hubHolds unplug d = false) :
    Locked (init Pid heap unplug) where
  plan := hplan
  excludes d k hk := by
    cases k with
    | proc p =>
      obtain ⟨c, o, pc, hp, -⟩ := hk
      cases hp
    | hub =>
      change hubHolds unplug d = true at hk
      rw [hhub d] at hk
      cases hk

theorem setChan_self (s : State Pid) (d : Direction) (ch : Channel Pid) :
    (s.setChan d ch).chan d = ch := Function.update_self ..

theorem setChan_of_ne {s : State Pid} {d d' : Direction} (h : d' ≠ d) (ch : Channel Pid) :
    (s.setChan d ch).chan d' = s.chan d' := Function.update_of_ne h ..

/-- What holds of every direction survives a change of one that keeps it there. -/
theorem setChan_keeps {P : Direction → Channel Pid → Prop} {s : State Pid} {d d' : Direction}
    {ch : Channel Pid} (hch : P d (s.chan d) → P d ch) (h : P d' (s.chan d')) :
    P d' ((s.setChan d ch).chan d') := by
  by_cases hd : d' = d
  · subst hd
    rw [setChan_self]
    exact hch h
  · rwa [setChan_of_ne hd]

/-- A statement of `example_disconnect` on a state in which it keeps to the rules. -/
theorem Locked.unplug {s t : State Pid} (h : Locked s) {stmt : UnplugStmt}
    {rest : List UnplugStmt} (hplan : s.unplug = stmt :: rest) (hstmt : unplugStep s stmt = some t) :
    Locked { t with unplug := rest } := by
  have hrest : Disciplined rest := (hplan ▸ h.plan).2
  have hrules := (hplan ▸ h.plan).1
  refine ⟨hrest, fun d => ?_⟩
  -- a process inside afterwards was inside before
  have hkeep : ∀ {ch : Direction → Channel Pid} {device : Ptr} {registered : Bool},
      (hubHolds rest d = true → hubHolds s.unplug d = true) →
      Excludes (s.chan d).mtx
        (State.Inside { s with chan := ch, device, registered, unplug := rest } d) := by
    intro ch device registered hhub
    refine (h.excludes d).mono fun k hk => ?_
    cases k with
    | proc q => exact hk
    | hub => exact hhub hk
  cases unplugStatement_of_unplugStep hstmt with
  | deregisters hstmt ht =>
    subst hstmt ht
    exact hkeep fun hhub => by rw [hplan]; exact hhub
  | clearsDevice hstmt ht =>
    subst hstmt ht
    exact hkeep fun hhub => by rw [hplan]; exact hhub
  | locks d' hstmt hfree ht =>
    subst hstmt ht
    by_cases hd : d = d'
    · subst hd
      have hexcl : Excludes none (s.Inside d) := hfree ▸ h.excludes d
      change Excludes ((s.setChan d _).chan d).mtx _
      rw [setChan_self]
      refine hexcl.lock fun k hk => ?_
      cases k with
      | proc q => exact .inl hk
      | hub => exact .inr rfl
    · change Excludes ((s.setChan d' _).chan d).mtx _
      rw [setChan_of_ne hd]
      exact hkeep fun hhub => by simpa [hplan, hubHolds, Ne.symm hd] using hhub
  | unlocks d' hstmt ht =>
    subst hstmt ht
    by_cases hd : d = d'
    · subst hd
      have hhub : s.Inside d .hub := by simp [State.Inside, hplan, hubHolds]
      refine (h.excludes d).unlock hhub fun k hk => ?_
      cases k with
      | proc q => exact ⟨hk, nofun⟩
      | hub =>
        have hafter : hubHolds rest d = true := hk
        rw [hrules.1 d rfl] at hafter
        cases hafter
    · change Excludes ((s.setChan d' _).chan d).mtx _
      rw [setChan_of_ne hd]
      exact hkeep fun hhub => by simp [hplan, hubHolds, hhub]
  | touches d' ch htouch hmtx _ _ ht =>
    subst ht
    have hsame : hubHolds s.unplug d = hubHolds rest d := by
      rw [hplan]
      cases stmt <;> first | rfl | cases htouch
    by_cases hd : d = d'
    · subst hd
      change Excludes ((s.setChan d ch).chan d).mtx _
      rw [setChan_self, hmtx]
      exact hkeep fun hhub => hsame ▸ hhub
    · change Excludes ((s.setChan d' ch).chan d).mtx _
      rw [setChan_of_ne hd]
      exact hkeep fun hhub => hsame ▸ hhub

section Update

variable [DecidableEq Pid]

theorem setProc_self (s : State Pid) (p : Pid) (x : Proc) : (s.setProc p x).proc p = x :=
  Function.update_self ..

theorem setProc_of_ne {s : State Pid} {p q : Pid} (h : q ≠ p) (x : Proc) :
    (s.setProc p x).proc q = s.proc q := Function.update_of_ne h ..

/-- After process `p` has moved to `x`, a call `q` is at `x` or where it was. -/
theorem setProc_eq_call {s : State Pid} {p q : Pid} {x : Proc} {c : Call} {o : Fin 8 → ℤ} {pc : Pc}
    (h : (s.setProc p x).proc q = .call c o pc) :
    q = p ∧ x = .call c o pc ∨ q ≠ p ∧ s.proc q = .call c o pc := by
  by_cases hq : q = p
  · subst hq
    exact .inl ⟨rfl, (setProc_self s q x).symm.trans h⟩
  · exact .inr ⟨hq, (setProc_of_ne hq x).symm.trans h⟩

/-- A process that moves to a place outside every critical section. -/
theorem Locked.move {s s' : State Pid} (h : Locked s) {p : Pid} {x : Proc}
    (hx : ∀ c o pc, x = .call c o pc → pc.holds = false) (hplan : s'.unplug = s.unplug)
    (hmtx : ∀ d, (s'.chan d).mtx = (s.chan d).mtx)
    (hproc : s'.proc = Function.update s.proc p x) : Locked s' := by
  refine h.mono hplan hmtx fun q c o pc hq hpc => ?_
  rw [hproc] at hq
  rcases setProc_eq_call (s := s) hq with ⟨-, rfl⟩ | ⟨-, hold⟩
  · rw [hx c o pc rfl] at hpc
    cases hpc
  · exact hold

/-- A statement of a call. -/
theorem Locked.call {s : State Pid} (h : Locked s) {p : Pid} {c : Call} {o : Fin 8 → ℤ} {pc : Pc}
    {e : Event} {f : Frame Pid} (hp : s.proc p = .call c o pc)
    (hst : Statement s.device p e ⟨s.chan c.dir, s.kBuffer, o, pc⟩ f) :
    Locked (s.setFrame p c f) where
  plan := h.plan
  excludes d := by
    -- whoever is inside afterwards was inside before, or is `p`
    have hsub : ∀ k, (s.setFrame p c f).Inside d k →
        k ≠ .proc p ∧ s.Inside d k ∨ k = .proc p ∧ c.dir = d ∧ f.pc.holds = true := by
      intro k hk
      cases k with
      | proc q =>
        obtain ⟨c', o', pc', hq, hd, hpc'⟩ := hk
        rcases setProc_eq_call hq with ⟨rfl, heq⟩ | ⟨hne, hold⟩
        · cases heq
          exact .inr ⟨rfl, hd, hpc'⟩
        · exact .inl ⟨fun heq => hne (Holder.proc.inj heq), c', o', pc', hold, hd, hpc'⟩
      | hub => exact .inl ⟨nofun, hk⟩
    by_cases hd : d = c.dir
    · subst hd
      change Excludes ((s.setChan c.dir f.ch).chan c.dir).mtx _
      rw [setChan_self]
      rcases hst.mtx with ⟨hmtx, hpc⟩ | ⟨hfree, hlock⟩ | ⟨hpc, hpc'⟩
      · rw [hmtx]
        refine (h.excludes c.dir).mono fun k hk => ?_
        rcases hsub k hk with ⟨-, hold⟩ | ⟨rfl, -, hin⟩
        · exact hold
        · exact ⟨c, o, pc, hp, rfl, hpc hin⟩
      · rw [hlock]
        have hexcl : Excludes none (s.Inside c.dir) := hfree ▸ h.excludes c.dir
        refine hexcl.lock fun k hk => ?_
        rcases hsub k hk with ⟨-, hold⟩ | ⟨hk, -⟩
        · exact .inl hold
        · exact .inr hk
      · refine (h.excludes c.dir).unlock (k := .proc p) ⟨c, o, pc, hp, rfl, hpc⟩ fun k hk => ?_
        rcases hsub k hk with ⟨hne, hold⟩ | ⟨-, -, hin⟩
        · exact ⟨hold, hne⟩
        · rw [hpc'] at hin
          cases hin
    · change Excludes ((s.setChan c.dir f.ch).chan d).mtx _
      rw [setChan_of_ne hd]
      refine (h.excludes d).mono fun k hk => ?_
      rcases hsub k hk with ⟨-, hold⟩ | ⟨-, hd', -⟩
      · exact hold
      · exact absurd hd'.symm hd

/-- The pointers and the mutex of a direction that `example_release` has worked on. -/
theorem ReleaseStatement.frame {s s' : State Pid} {p : Pid} {pc : ReleasePc}
    (h : ReleaseStatement s p pc s') :
    s'.unplug = s.unplug ∧ s'.device = s.device ∧
      (∃ pc', s'.proc = Function.update s.proc p (.release pc')) ∧
      ∀ d, (s'.chan d).mtx = (s.chan d).mtx ∧ (s'.chan d).endpoint = (s.chan d).endpoint ∧
        (s'.chan d).urb = (s.chan d).urb ∧ (s'.chan d).buffer = (s.chan d).buffer := by
  cases h with
  | givesUp _ hs' | locks _ _ _ _ hs' | looks _ _ _ _ hs' | decrements _ hs' | unlocks _ hs' =>
    rw [hs']
    exact ⟨rfl, rfl, ⟨_, rfl⟩, fun d => ⟨rfl, rfl, rfl, rfl⟩⟩
  | kills ch hpc hurb hch hs' =>
    rw [hs']
    refine ⟨rfl, rfl, ⟨_, rfl⟩, fun d => ?_⟩
    cases d with
    | output => rcases hch with ⟨rfl, -⟩ | rfl <;> exact ⟨rfl, rfl, rfl, rfl⟩
    | input => exact ⟨rfl, rfl, rfl, rfl⟩
  | clears hpc hs' =>
    rw [hs']
    refine ⟨rfl, rfl, ⟨_, rfl⟩, fun d => ?_⟩
    cases d <;> exact ⟨rfl, rfl, rfl, rfl⟩

/-- **Mutual exclusion**, one step. -/
theorem locked_step {S : Setup} {s s' : State Pid} {act : Act Pid} {out : List (Output Pid)}
    (h : Locked s) (hstep : step S s act = some (s', out)) : Locked s' := by
  cases stepped_of_step hstep with
  | stays hs' => exact hs' ▸ h
  | opens hmtx hcount hs' =>
    subst hs'
    exact h.mono rfl (fun _ => rfl) fun _ _ _ _ hq _ => hq
  | starts p c hp hopen hs' =>
    subst hs'
    exact h.move (fun _ _ _ heq => by cases heq; rfl) rfl (fun _ => rfl) rfl
  | startsRelease p hp hopen hin hs' =>
    subst hs'
    exact h.move (x := .release .lock) (fun _ _ _ heq => nomatch heq) rfl (fun _ => rfl) rfl
  | calls p c o pc e f hact hp hst hs' =>
    subst hs'
    exact h.call hp hst
  | returns p c o ret user advance hp hs' =>
    subst hs'
    exact h.move (x := .user) (fun _ _ _ heq => nomatch heq) rfl (fun _ => rfl) rfl
  | releases p pc hp hst =>
    obtain ⟨hplan, -, ⟨pc', hproc⟩, hchan⟩ := hst.frame
    exact h.move (x := .release pc') (fun _ _ _ heq => nomatch heq) hplan (fun d => (hchan d).1) hproc
  | released p ret hp hs' =>
    subst hs'
    exact h.move (x := .user) (fun _ _ _ heq => nomatch heq) rfl (fun _ => rfl) rfl
  | completes d status bytes hflight hs' =>
    subst hs'
    refine h.mono rfl (fun d' => ?_) fun _ _ _ _ hq _ => hq
    exact setChan_keeps (P := fun d' ch => ch.mtx = (s.chan d').mtx) (fun hmtx => hmtx) rfl
  | unplugs stmt rest t hact hplan hstmt hs' =>
    subst hs'
    exact h.unplug hplan hstmt

end Update

end IldDrivers.ExampleVII
