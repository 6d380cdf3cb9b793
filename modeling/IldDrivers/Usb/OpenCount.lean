import IldDrivers.Usb.Files
import Mathlib.Data.Set.Card

/-!
# `example_open_count`

A file counts as open until the `example_open_count--` of its release. A release that is interrupted
while it waits for `example_mtx` returns without it, and the file is closed all the same.

* `releasing`: the processes whose release has its decrement before it;
* `State.surplus`: what the count has too much; `surplus_step`: what a step does to it;
* `open_count_iff`: when the count is that of the files.
-/

namespace IldDrivers.ExampleVII

variable {Pid : Type*}

/-- In a release whose `example_open_count--` is still to come. -/
def Proc.counts : Proc → Bool
  | .release pc => pc.counts
  | _ => false

/-- The processes that are releasing a file which still counts. -/
def releasing (proc : Pid → Proc) : Set Pid := {p | (proc p).counts = true}

/-- What `example_open_count` has more than there are files. -/
noncomputable def State.surplus (s : State Pid) : ℤ :=
  s.openCount - (s.opened + (releasing s.proc).ncard)

/-- No signal ends the wait of `example_release` for `example_mtx`. (The critical section of
`example_open` being one step, the open that has the mutex meanwhile does not show.) -/
def NotInterrupted (s : State Pid) (act : Act Pid) : Prop :=
  ∀ p, act = .proc p .signal → s.proc p ≠ .release .lock

/-- The count is that of the files, there is one at most, and when there is none the device can be
opened. -/
structure Counted (v : Version) (s : State Pid) : Prop where
  count : s.openCount = s.opened + (releasing s.proc).ncard
  le_one : s.openCount ≤ 1
  reopens : s.opened = 0 → (∀ p pc, s.proc p ≠ .release pc) → s.device ≠ .null →
    exampleOpen v s = some ({ s with openCount := 1, opened := 1 }, 0)

theorem mem_releasing {proc : Pid → Proc} {p : Pid} :
    p ∈ releasing proc ↔ (proc p).counts = true := Iff.rfl

/-- One release at most counts. -/
theorem Files.releasing_subsingleton {s : State Pid} (h : Files s) :
    (releasing s.proc).Subsingleton := by
  intro p hp q hq
  rw [mem_releasing] at hp hq
  cases hproc : s.proc p with
  | release pc =>
    cases hproc' : s.proc q with
    | release pc' =>
      rw [hproc] at hp
      rw [hproc'] at hq
      exact (h.alone p q pc pc' hproc hp hproc' hq).symm
    | user | call =>
      rw [hproc'] at hq
      cases hq
  | user | call =>
    rw [hproc] at hp
    cases hp

/-- While a release counts, no file is open and the count is not zero. -/
theorem Files.of_mem_releasing {s : State Pid} (h : Files s) {p : Pid}
    (hp : p ∈ releasing s.proc) : s.opened = 0 ∧ 0 < s.openCount := by
  rw [mem_releasing] at hp
  cases hproc : s.proc p with
  | release pc =>
    rw [hproc] at hp
    exact h.pending p pc hproc hp
  | user | call =>
    rw [hproc] at hp
    cases hp

section Update

variable [DecidableEq Pid] {s s' : State Pid} {p : Pid} {x : Proc}

/-! ### The releases that count -/

theorem releasing_same (h : x.counts = (s.proc p).counts) :
    releasing (Function.update s.proc p x) = releasing s.proc := by
  ext q
  rw [mem_releasing, mem_releasing]
  by_cases hq : q = p
  · rw [hq, Function.update_self, h]
  · rw [Function.update_of_ne hq]

theorem releasing_insert (h : x.counts = true) :
    releasing (Function.update s.proc p x) = insert p (releasing s.proc) := by
  ext q
  rw [Set.mem_insert_iff, mem_releasing, mem_releasing]
  by_cases hq : q = p
  · rw [hq, Function.update_self]
    exact iff_of_true h (.inl rfl)
  · rw [Function.update_of_ne hq, or_iff_right hq]

theorem releasing_diff (h : x.counts = false) :
    releasing (Function.update s.proc p x) = releasing s.proc \ {p} := by
  ext q
  rw [Set.mem_sdiff, mem_releasing, mem_releasing, Set.mem_singleton_iff]
  by_cases hq : q = p
  · rw [hq, Function.update_self, h]
    simp
  · rw [Function.update_of_ne hq, and_iff_left hq]

/-- A release that counted does not count any more. -/
theorem Files.ncard_releasing (h : Files s) (hp : p ∈ releasing s.proc) (hx : x.counts = false) :
    (releasing (Function.update s.proc p x)).ncard + 1 = (releasing s.proc).ncard := by
  rw [releasing_diff hx]
  exact Set.ncard_sdiff_singleton_add_one hp h.releasing_subsingleton.finite

/-! ### What a step does to the count -/

omit [DecidableEq Pid] in
theorem surplus_of_same (hcount : s'.openCount = s.openCount) (hopened : s'.opened = s.opened)
    (hreleasing : releasing s'.proc = releasing s.proc) : s'.surplus = s.surplus := by
  rw [State.surplus, hcount, hopened, hreleasing, State.surplus]

/-- What a statement of a release does to the processes. -/
theorem ReleaseStatement.proc {pc : ReleasePc} (h : ReleaseStatement s p pc s') :
    ∃ pc', s'.proc = Function.update s.proc p (.release pc') := by
  cases h with
  | givesUp _ hs' | locks pc' _ _ _ hs' | looks pc' _ _ _ hs' | kills ch _ _ _ hs' | clears _ hs'
  | decrements _ hs' | unlocks _ hs' => exact ⟨_, by rw [hs']⟩

/-- The process that an action moves. -/
def Act.moves : Act Pid → Option Pid
  | .start p _ | .startRelease p | .proc p _ => some p
  | .openFile _ _ | .complete _ _ _ | .unplug => none

/-- An action moves no process but its own. -/
theorem proc_of_moves {S : Setup} {act : Act Pid} {out : List (Output Pid)}
    (hact : act.moves ≠ some p) (hstep : step S s act = some (s', out)) :
    s'.proc p = s.proc p := by
  have hne : ∀ q, act.moves = some q → p ≠ q := fun q hq heq => hact (by rw [hq, heq])
  cases fired_of_step hstep with
  | refuses | opens | completes => rfl
  | starts q | startsRelease q | calls q | returns q | released q =>
    exact Function.update_of_ne (hne q rfl) ..
  | releases q pc e t hq hst =>
    obtain ⟨pc', hproc⟩ := hst.proc
    rw [hproc, Function.update_of_ne (hne q rfl)]
  | unplugs stmt rest t hplan hstmt =>
    cases unplugStatement_of_unplugStep hstmt with
    | deregisters _ ht | clearsDevice _ ht | locks _ _ _ ht | unlocks _ _ ht
    | touches _ _ _ _ _ _ ht => rw [ht]

/-- A process inside the driver is moved by its own events only. -/
theorem proc_of_step {S : Setup} {act : Act Pid} {out : List (Output Pid)}
    (hact : ∀ e, act ≠ .proc p e) (hp : s.proc p ≠ .user)
    (hstep : step S s act = some (s', out)) : s'.proc p = s.proc p := by
  refine proc_of_moves (fun hmoves => ?_) hstep
  cases act with
  | start q c | startRelease q =>
    obtain rfl := Option.some.inj hmoves
    simp only [step] at hstep
    cases hstep
  | proc q e =>
    obtain rfl := Option.some.inj hmoves
    exact hact e rfl
  | openFile | complete | unplug => cases hmoves

/-- A process that gives up its wait for `example_mtx` in a release has received a signal. -/
theorem signal_of_givesUp {S : Setup} {act : Act Pid} {out : List (Output Pid)} {ret : ℤ}
    (hp : s.proc p = .release .lock) (hp' : s'.proc p = .release (.ret ret))
    (hstep : step S s act = some (s', out)) : act = .proc p .signal := by
  by_cases hact : ∃ e, act = .proc p e
  · obtain ⟨e, rfl⟩ := hact
    simp only [step, hp] at hstep
    cases e with
    | signal => rfl
    | run =>
      obtain ⟨t, ht, heq⟩ := Option.map_eq_some_iff.1 hstep
      cases heq
      simp only [releaseStep, Option.ite_none_right_eq_some, Option.some.injEq] at ht
      obtain ⟨-, rfl⟩ := ht
      simp only [Function.update_self] at hp'
      cases hversion : S.version <;> simp [hversion] at hp'
    | submit | timeout => cases hstep
  · have hsame := proc_of_step (fun e heq => hact ⟨e, heq⟩) (by rw [hp]; intro h; cases h) hstep
    rw [hsame, hp] at hp'
    cases hp'

/-- The count and the number of files change together, except where a release is interrupted. -/
theorem surplus_step {S : Setup} {act : Act Pid} {out : List (Output Pid)} (h : Files s)
    (hact : NotInterrupted s act) (hstep : step S s act = some (s', out)) :
    s'.surplus = s.surplus := by
  cases stepped_of_step hstep with
  | stays hs' => rw [hs']
  | opens hmtx hcount hs' =>
    subst hs'
    simp only [State.surplus]
    push_cast
    ring
  | starts p c hp hopen hs' =>
    subst hs'
    exact surplus_of_same rfl rfl (releasing_same (by rw [hp]; rfl))
  | startsRelease p hp hopen hin hs' =>
    subst hs'
    -- the file counts in its release instead
    have hnew : p ∉ releasing s.proc := by
      rw [mem_releasing, hp]
      exact Bool.false_ne_true
    have hcard : (releasing (Function.update s.proc p (.release .lock))).ncard =
        (releasing s.proc).ncard + 1 := by
      rw [releasing_insert rfl, Set.ncard_insert_of_notMem hnew h.releasing_subsingleton.finite]
    simp only [State.surplus, hcard]
    push_cast [Nat.cast_sub hopen]
    ring
  | calls p c o pc e f hact hp hst hs' =>
    subst hs'
    exact surplus_of_same rfl rfl (releasing_same (by rw [hp]; rfl))
  | returns p c o ret user advance hp hs' =>
    subst hs'
    exact surplus_of_same rfl rfl (releasing_same (by rw [hp]; rfl))
  | releases p pc hp hst =>
    cases hst with
    | givesUp hpc hs' =>
      subst hpc
      have hret : s'.proc p = .release (.ret (-eRestartSys)) := by rw [hs', setProc_self]
      exact absurd hp (hact p (signal_of_givesUp hp hret hstep))
    | locks pc' hpc hfree hpc' hs' =>
      subst hpc hs'
      refine surplus_of_same rfl rfl (releasing_same ?_)
      rw [hp]
      rcases hpc' with rfl | rfl <;> rfl
    | looks pc' hpc hpc' hidle hs' =>
      subst hs'
      refine surplus_of_same rfl rfl (releasing_same ?_)
      rw [hp]
      rcases hpc with rfl | rfl | rfl <;> rcases hpc' with rfl | rfl | rfl | rfl <;> rfl
    | kills ch hpc hurb hch hs' =>
      subst hpc hs'
      exact surplus_of_same rfl rfl (releasing_same (by rw [hp]; rfl))
    | clears hpc hs' =>
      subst hpc hs'
      exact surplus_of_same rfl rfl (releasing_same (by rw [hp]; rfl))
    | decrements hpc hs' =>
      subst hpc hs'
      have hcard := h.ncard_releasing (p := p) (x := .release .unlock)
        (by rw [mem_releasing, hp]; rfl) rfl
      simp only [State.surplus]
      rw [← hcard]
      push_cast
      ring
    | unlocks hpc hs' =>
      subst hpc hs'
      exact surplus_of_same rfl rfl (releasing_same (by rw [hp]; rfl))
  | released p ret hp hs' =>
    subst hs'
    exact surplus_of_same rfl rfl (releasing_same (by rw [hp]; rfl))
  | completes d status bytes hflight hs' =>
    subst hs'
    exact surplus_of_same rfl rfl rfl
  | unplugs stmt rest t hact hplan hstmt hs' =>
    subst hs'
    cases unplugStatement_of_unplugStep hstmt with
    | deregisters _ ht | clearsDevice _ ht | locks _ _ _ ht | unlocks _ _ ht
    | touches _ _ _ _ _ _ ht =>
      subst ht
      exact surplus_of_same rfl rfl rfl

/-- A release that is interrupted leaves the count one too high. -/
theorem surplus_interrupted {S : Setup} {act : Act Pid} {out : List (Output Pid)} (h : Files s)
    (hact : ¬ NotInterrupted s act) (hstep : step S s act = some (s', out)) :
    s'.surplus = s.surplus + 1 := by
  unfold NotInterrupted at hact
  push Not at hact
  obtain ⟨p, rfl, hp⟩ := hact
  simp only [step, hp, releaseSignal, Option.map_some, Option.some.injEq, Prod.mk.injEq] at hstep
  obtain ⟨rfl, -⟩ := hstep
  have hcard := h.ncard_releasing (p := p) (x := .release (.ret (-eRestartSys)))
    (by rw [mem_releasing, hp]; rfl) rfl
  simp only [State.surplus]
  rw [← hcard]
  push_cast
  ring

/-! ### Who has `example_mtx` -/

/-- Between the lock and the unlock of `example_mtx`. -/
def ReleasePc.holds : ReleasePc → Bool
  | .lock | .ret _ => false
  | _ => true

/-- Between two steps, a release has `example_mtx` or nobody has. -/
def MtxHeld (s : State Pid) : Prop :=
  ∀ p, s.mtx = some p → ∃ pc, s.proc p = .release pc ∧ pc.holds = true

theorem MtxHeld.move (h : MtxHeld s) (hmtx : s'.mtx = s.mtx)
    (hproc : s'.proc = Function.update s.proc p x)
    (hp : ∀ pc, s.proc p = .release pc → pc.holds = true →
      ∃ pc', x = .release pc' ∧ pc'.holds = true) : MtxHeld s' := by
  intro q hq
  rw [hmtx] at hq
  obtain ⟨pc, hpc, hholds⟩ := h q hq
  rw [hproc]
  by_cases hqp : q = p
  · subst hqp
    rw [Function.update_self]
    exact hp pc hpc hholds
  · rw [Function.update_of_ne hqp]
    exact ⟨pc, hpc, hholds⟩

/-- The same for a process that is in no critical section. -/
theorem MtxHeld.leave (h : MtxHeld s) (hmtx : s'.mtx = s.mtx)
    (hproc : s'.proc = Function.update s.proc p x)
    (hp : ∀ pc, s.proc p = .release pc → pc.holds = false) : MtxHeld s' :=
  h.move hmtx hproc fun pc hpc hholds => by
    rw [hp pc hpc] at hholds
    cases hholds

theorem mtxHeld_step {S : Setup} {act : Act Pid} {out : List (Output Pid)} (h : MtxHeld s)
    (hstep : step S s act = some (s', out)) : MtxHeld s' := by
  cases stepped_of_step hstep with
  | stays hs' => exact hs' ▸ h
  | opens _ _ hs' => exact hs' ▸ h
  | starts p c hp _ hs' | startsRelease p hp _ _ hs' | calls p c _ _ _ _ _ hp _ hs'
  | returns p c _ _ _ _ hp hs' =>
    subst hs'
    refine h.leave rfl rfl fun pc hpc => ?_
    rw [hp] at hpc
    cases hpc
  | releases p pc hp hst =>
    cases hst with
    | givesUp hpc hs' =>
      subst hpc hs'
      refine h.leave rfl rfl fun pc hpc => ?_
      rw [hp] at hpc
      cases hpc
      rfl
    | locks pc' hpc hfree hpc' hs' =>
      subst hs'
      intro q hq
      obtain rfl := Option.some.inj hq
      exact ⟨pc', setProc_self .., by rcases hpc' with rfl | rfl <;> rfl⟩
    | looks pc' hpc hpc' hidle hs' =>
      subst hs'
      exact h.move rfl rfl fun _ _ _ => ⟨pc', rfl, by rcases hpc' with rfl | rfl | rfl | rfl <;> rfl⟩
    | kills ch hpc hurb hch hs' | clears hpc hs' | decrements hpc hs' =>
      subst hs'
      exact h.move rfl rfl fun _ _ _ => ⟨_, rfl, rfl⟩
    | unlocks hpc hs' =>
      subst hs'
      exact nofun
  | released p ret hp hs' =>
    subst hs'
    refine h.leave rfl rfl fun pc hpc => ?_
    rw [hp] at hpc
    cases hpc
    rfl
  | completes d status bytes hflight hs' => exact hs' ▸ h
  | unplugs stmt rest t hact hplan hstmt hs' =>
    subst hs'
    cases unplugStatement_of_unplugStep hstmt with
    | deregisters _ ht | clearsDevice _ ht | locks _ _ _ ht | unlocks _ _ ht
    | touches _ _ _ _ _ _ ht => exact ht ▸ h

end Update

/-! ### Every run -/

theorem counted_of_surplus {s : State Pid} (hfiles : Files s) (hheld : MtxHeld s)
    (h : s.surplus = 0) (v : Version) : Counted v s := by
  have hcount : s.openCount = s.opened + (releasing s.proc).ncard := sub_eq_zero.1 h
  refine ⟨hcount, ?_, fun hopened hnone hdevice => ?_⟩
  · -- a file that is being released is the only one
    rcases (releasing s.proc).eq_empty_or_nonempty with hempty | ⟨p, hp⟩
    · have hopened := hfiles.opened_le
      rw [hcount, hempty, Set.ncard_empty]
      omega
    · have hsub := hfiles.releasing_subsingleton
      have hcard := (Set.ncard_le_one hsub.finite).2 fun a ha b hb => hsub ha hb
      rw [hcount, (hfiles.of_mem_releasing hp).1]
      omega
  · have hempty : releasing s.proc = ∅ := by
      refine Set.eq_empty_iff_forall_notMem.2 fun p hp => ?_
      rw [mem_releasing] at hp
      cases hproc : s.proc p with
      | release pc => exact hnone p pc hproc
      | user | call =>
        rw [hproc] at hp
        cases hp
    have hmtx : s.mtx.isSome = false := by
      rw [Option.isSome_eq_false_iff, Option.isNone_iff_eq_none]
      refine Option.eq_none_iff_forall_ne_some.2 fun p hp => ?_
      obtain ⟨pc, hpc, -⟩ := hheld p hp
      exact hnone p pc hpc
    have hzero : s.openCount = 0 := by rw [hcount, hopened, hempty, Set.ncard_empty]; rfl
    simp [exampleOpen, hmtx, hzero, hopened, hdevice]

section Runs

variable [DecidableEq Pid] {S : Setup} {s : State Pid} {log : List (Output Pid)}

/-- **When the count is that of the open files**, which is one at most: in every run of either program,
whatever the processes and `example_disconnect` do, it is as long as no signal ends the wait of a
release for `example_mtx`, and not after one has. -/
theorem open_count_iff {heap : Direction → Memory UInt8} {unplug : List UnplugStmt}
    {acts : List (Act Pid)}
    (hrun : (system S Pid).exec (init Pid heap unplug) acts = some (s, log)) :
    (system S Pid).Always (Counted S.version) (init Pid heap unplug) acts ↔
      (system S Pid).Along NotInterrupted (init Pid heap unplug) acts := by
  have hheld : MtxHeld (init Pid heap unplug) := nofun
  have hzero : (init Pid heap unplug).surplus = 0 := by
    have hempty : releasing (init Pid heap unplug).proc = ∅ := by
      ext p
      rw [mem_releasing]
      exact iff_of_false Bool.false_ne_true id
    rw [State.surplus, hempty, Set.ncard_empty]
    rfl
  refine System.always_iff_along_of_step (W := fun s => Files s ∧ MtxHeld s) ?_ ?_
    ⟨files_init heap unplug, hheld⟩ (counted_of_surplus (files_init heap unplug) hheld hzero _) hrun
  · rintro s act s' out ⟨hfiles, hheld⟩ hstep
    exact ⟨files_step hfiles hstep, mtxHeld_step hheld hstep⟩
  · rintro s act s' out ⟨hfiles, hheld⟩ hcounted hstep
    have hsurplus : s.surplus = 0 := sub_eq_zero.2 hcounted.count
    constructor
    · intro hcounted'
      by_contra hact
      have hone := surplus_interrupted hfiles hact hstep
      have hnone : s'.surplus = 0 := sub_eq_zero.2 hcounted'.count
      omega
    · intro hact
      refine counted_of_surplus (files_step hfiles hstep) (mtxHeld_step hheld hstep) ?_ _
      rw [surplus_step hfiles hact hstep, hsurplus]

end Runs

/-- A process opens the device and closes it, then another does. -/
def openedTwice : List (Act Bool) :=
  [.openFile false false, .startRelease false, .proc false .run, .proc false .run, .proc false .run,
    .proc false .run, .openFile true false, .startRelease true, .proc true .run, .proc true .run]

theorem open_count_iff_openedTwice :
    ∃ (s : State Bool) (log : List (Output Bool)),
      (system (demo .vii05) Bool).exec (init Bool (fun _ _ => 0) []) openedTwice = some (s, log) ∧
      log = [.returned false 0 [] 0, .returned false 0 [] 0, .returned true 0 [] 0] ∧
      (system (demo .vii05) Bool).Always (Counted .vii05) (init Bool (fun _ _ => 0) []) openedTwice := by
  obtain ⟨⟨s, log⟩, hrun, hval⟩ := Option.map_eq_some_iff.1
    (show ((system (demo .vii05) Bool).exec (init Bool (fun _ _ => 0) []) openedTwice).map
      (fun r => r.2) = some [.returned false 0 [] 0, .returned false 0 [] 0, .returned true 0 [] 0]
      by decide +kernel)
  have hsignal : ∀ a ∈ openedTwice, ∀ p, a ≠ .proc p .signal := by simp [openedTwice]
  have halong := System.along_of_forall (S := system (demo .vii05) Bool) hsignal
    (init Bool (fun _ _ => 0) [])
  refine ⟨s, log, hrun, hval, (open_count_iff hrun).2 (System.Along.mono (fun _ a h p heq => ?_) halong)⟩
  exact absurd heq (h p)

/-- A signal ends the release; the device is opened again. -/
def releaseInterrupted : List (Act Bool) :=
  [.openFile false false, .startRelease false, .proc false .signal, .proc false .run,
    .openFile true false]

/-- Nothing is open, nothing is being released, and the device cannot be opened any more. -/
def LockedOut (v : Version) : Prop :=
  ∃ (s : State Bool) (log : List (Output Bool)),
    (system (demo v) Bool).exec (init Bool (fun _ _ => 0) []) releaseInterrupted = some (s, log) ∧
    log = [.returned false 0 [] 0, .returned false (-eRestartSys) [] 0, .returned true (-eBusy) [] 0] ∧
    s.opened = 0 ∧ releasing s.proc = ∅ ∧ s.openCount = 1 ∧
    ¬ (system (demo v) Bool).Always (Counted v) (init Bool (fun _ _ => 0) []) releaseInterrupted

theorem lockedOut (v : Version) : LockedOut v := by
  obtain ⟨⟨s, log⟩, hrun, hval⟩ := Option.map_eq_some_iff.1
    (show ((system (demo v) Bool).exec (init Bool (fun _ _ => 0) []) releaseInterrupted).map
      (fun r => (r.2, r.1.opened, (r.1.proc false).counts, (r.1.proc true).counts, r.1.openCount)) =
        some ([.returned false 0 [] 0, .returned false (-eRestartSys) [] 0,
          .returned true (-eBusy) [] 0], 0, false, false, 1) by cases v <;> decide +kernel)
  simp only [Prod.mk.injEq] at hval
  obtain ⟨hlog, hopened, hfalse, htrue, hcount⟩ := hval
  have hempty : releasing s.proc = ∅ := by
    ext p
    rw [mem_releasing]
    cases p <;> simp [hfalse, htrue]
  refine ⟨s, log, hrun, hlog, hopened, hempty, hcount, fun halways => ?_⟩
  have hlast := (halways.last hrun).count
  rw [hcount, hopened, hempty, Set.ncard_empty] at hlast
  exact absurd hlast (by decide)

/-- In both programs. -/
theorem release_locks_out : LockedOut .vii05 ∧ LockedOut .vii04 :=
  ⟨lockedOut .vii05, lockedOut .vii04⟩

end IldDrivers.ExampleVII
