import IldDrivers.Usb.Locking

/-!
# Opening and releasing

`example_open_count` lets one file be open at a time. While an `example_release` still has its
`example_open_count--` before it, no file is open, no process is inside a call and no other release is
under way (`Files.pending`, `Files.alone`).
-/

namespace IldDrivers.ExampleVII

variable {Pid : Type*}

/-- Before `example_open_count--`. -/
def ReleasePc.counts : ReleasePc → Bool
  | .unlock | .ret _ => false
  | _ => true

structure Files (s : State Pid) : Prop where
  count_nonneg : 0 ≤ s.openCount
  opened_le : s.opened ≤ 1
  counted : 0 < s.opened → 0 < s.openCount
  inside : ∀ p c o pc, s.proc p = .call c o pc → p ∈ s.inside
  calls : ∀ p ∈ s.inside, 0 < s.opened
  pending : ∀ p pc, s.proc p = .release pc → pc.counts = true → s.opened = 0 ∧ 0 < s.openCount
  alone : ∀ p q pc pc', s.proc p = .release pc → pc.counts = true →
    s.proc q = .release pc' → pc'.counts = true → q = p

/-- While a release is under way, nobody is inside a call. -/
theorem Files.no_call {s : State Pid} (h : Files s) {p q : Pid} {pc : ReleasePc} {c : Call}
    {o : Fin 8 → ℤ} {pc' : Pc} (hp : s.proc p = .release pc) (hpc : pc.counts = true) :
    s.proc q ≠ .call c o pc' := by
  intro hq
  have hopen := h.calls q (h.inside q c o pc' hq)
  rw [(h.pending p pc hp hpc).1] at hopen
  exact lt_irrefl 0 hopen

theorem files_init (heap : Direction → Memory UInt8) (unplug : List UnplugStmt) :
    Files (init Pid heap unplug) where
  count_nonneg := le_rfl
  opened_le := Nat.zero_le 1
  counted h := absurd h (lt_irrefl 0)
  inside p c o pc h := by cases h
  calls p h := by simp [init] at h
  pending p pc h := by cases h
  alone p q pc pc' h := by cases h

/-- A release that counts leaves no file open. -/
theorem Files.not_pending {s : State Pid} (h : Files s) (hopen : 0 < s.opened) {p : Pid}
    {pc : ReleasePc} (hp : s.proc p = .release pc) : pc.counts = false := by
  by_contra hpc
  rw [(h.pending p pc hp (by simpa using hpc)).1] at hopen
  exact lt_irrefl 0 hopen

/-- `example_open` succeeds. -/
theorem Files.open {s : State Pid} (h : Files s) (hcount : s.openCount ≤ 0) :
    Files { s with openCount := s.openCount + 1, opened := s.opened + 1 } := by
  have hclosed : s.opened = 0 := by
    by_contra hne
    exact absurd (h.counted (Nat.pos_of_ne_zero hne)) (not_lt.2 hcount)
  have hnone : ∀ p pc, s.proc p = .release pc → pc.counts = true → False := fun p pc hp hpc =>
    absurd (h.pending p pc hp hpc).2 (not_lt.2 hcount)
  have hnonneg := h.count_nonneg
  exact
    { count_nonneg := show 0 ≤ s.openCount + 1 by omega
      opened_le := show s.opened + 1 ≤ 1 by omega
      counted := fun _ => show 0 < s.openCount + 1 by omega
      inside := h.inside
      calls := fun _ _ => Nat.succ_pos s.opened
      pending := fun p pc hp hpc => (hnone p pc hp hpc).elim
      alone := fun p _ pc _ hp hpc => (hnone p pc hp hpc).elim }

section Update

variable [DecidableEq Pid]

theorem setProc_eq_release {s : State Pid} {p q : Pid} {x : Proc} {pc : ReleasePc}
    (h : (s.setProc p x).proc q = .release pc) :
    q = p ∧ x = .release pc ∨ q ≠ p ∧ s.proc q = .release pc := by
  by_cases hq : q = p
  · subst hq
    exact .inl ⟨rfl, (setProc_self s q x).symm.trans h⟩
  · exact .inr ⟨hq, (setProc_of_ne hq x).symm.trans h⟩

/-- A process moves on; the files and the count stay as they are. -/
theorem Files.move {s s' : State Pid} (h : Files s) {p : Pid} {x : Proc}
    (hcount : s'.openCount = s.openCount) (hopened : s'.opened = s.opened)
    (hinside : s'.inside = s.inside)
    (hproc : s'.proc = Function.update s.proc p x)
    (hcall : ∀ c o pc, x = .call c o pc → p ∈ s.inside)
    (hrelease : ∀ pc', x = .release pc' → pc'.counts = true →
      ∃ pc, s.proc p = .release pc ∧ pc.counts = true) : Files s' := by
  -- a release that counts afterwards counted before
  have hback : ∀ q pc', s'.proc q = .release pc' → pc'.counts = true →
      ∃ pc, s.proc q = .release pc ∧ pc.counts = true := by
    intro q pc' hq hpc'
    rw [hproc] at hq
    rcases setProc_eq_release (s := s) hq with ⟨rfl, rfl⟩ | ⟨-, hold⟩
    · exact hrelease pc' rfl hpc'
    · exact ⟨pc', hold, hpc'⟩
  refine ⟨hcount ▸ h.count_nonneg, hopened ▸ h.opened_le, ?_, ?_, ?_, ?_, ?_⟩
  · rw [hopened, hcount]
    exact h.counted
  · intro q c o pc hq
    rw [hproc] at hq
    rw [hinside]
    rcases setProc_eq_call (s := s) hq with ⟨rfl, rfl⟩ | ⟨-, hold⟩
    · exact hcall c o pc rfl
    · exact h.inside q c o pc hold
  · rw [hinside, hopened]
    exact h.calls
  · intro q pc' hq hpc'
    obtain ⟨pc, hold, hpc⟩ := hback q pc' hq hpc'
    rw [hopened, hcount]
    exact h.pending q pc hold hpc
  · intro q r pc' pc'' hq hpc' hr hpc''
    obtain ⟨pc, hq', hpc⟩ := hback q pc' hq hpc'
    obtain ⟨pc₂, hr', hpc₂⟩ := hback r pc'' hr hpc''
    exact h.alone q r pc pc₂ hq' hpc hr' hpc₂

/-- A statement of `example_release`. -/
theorem Files.release {s s' : State Pid} (h : Files s) {p : Pid} {pc : ReleasePc}
    (hp : s.proc p = .release pc) (hst : ReleaseStatement s p pc s') : Files s' := by
  have hcounts : pc.counts = true → ∃ pc, s.proc p = .release pc ∧ pc.counts = true :=
    fun hpc => ⟨pc, hp, hpc⟩
  cases hst with
  | givesUp hpc hs' =>
    subst hs'
    exact h.move rfl rfl rfl rfl (fun _ _ _ heq => nomatch heq) fun _ heq hpc' => by
      cases heq
      cases hpc'
  | locks pc' hpc _ _ hs' | kills ch hpc _ _ hs' | clears hpc hs' =>
    subst hpc hs'
    exact h.move rfl rfl rfl rfl (fun _ _ _ heq => nomatch heq) fun _ _ _ => hcounts rfl
  | looks pc' hpc _ _ hs' =>
    subst hs'
    refine h.move rfl rfl rfl rfl (fun _ _ _ heq => nomatch heq) fun _ _ _ => hcounts ?_
    rcases hpc with rfl | rfl | rfl <;> rfl
  | unlocks hpc hs' =>
    subst hs'
    exact h.move rfl rfl rfl rfl (fun _ _ _ heq => nomatch heq) fun _ heq hpc' => by
      cases heq
      cases hpc'
  | decrements hpc hs' =>
    subst hpc hs'
    obtain ⟨hopened, hcount⟩ := h.pending p _ hp rfl
    -- no other release has its decrement before it
    have hnone : ∀ q pc', (s.setProc p (.release .unlock)).proc q = .release pc' →
        pc'.counts = false := by
      intro q pc' hq
      rcases setProc_eq_release hq with ⟨-, heq⟩ | ⟨hne, hold⟩
      · cases heq
        rfl
      · by_contra hpc'
        exact hne (h.alone p q _ pc' hp rfl hold (by simpa using hpc'))
    refine ⟨Int.sub_nonneg_of_le hcount, h.opened_le, fun hpos => ?_, fun q c o pc hq => ?_,
      h.calls, fun q pc' hq hpc' => ?_, fun q r pc' pc'' hq hpc' => ?_⟩
    · change 0 < s.opened at hpos
      rw [hopened] at hpos
      exact absurd hpos (lt_irrefl 0)
    · rcases setProc_eq_call hq with ⟨-, heq⟩ | ⟨-, hold⟩
      · cases heq
      · exact h.inside q c o pc hold
    · rw [hnone q pc' hq] at hpc'
      cases hpc'
    · rw [hnone q pc' hq] at hpc'
      cases hpc'

/-- A process enters a call. -/
theorem Files.start {s : State Pid} (h : Files s) (hopen : 0 < s.opened) (p : Pid) (c : Call) :
    Files ({ s with inside := insert p s.inside }.setProc p (.call c (fun _ => 0) .enter)) := by
  -- nobody is releasing
  have hnone : ∀ q pc, ({ s with inside := insert p s.inside }.setProc p
      (.call c (fun _ => 0) .enter)).proc q = .release pc → pc.counts = false := by
    intro q pc hq
    rcases setProc_eq_release hq with ⟨-, heq⟩ | ⟨-, hold⟩
    · cases heq
    · exact h.not_pending hopen hold
  refine ⟨h.count_nonneg, h.opened_le, h.counted, fun q c' o pc hq => ?_, fun _ _ => hopen,
    fun q pc hq hpc => ?_, fun q r pc pc' hq hpc => ?_⟩
  · rcases setProc_eq_call hq with ⟨rfl, -⟩ | ⟨-, hold⟩
    · exact Finset.mem_insert_self ..
    · exact Finset.mem_insert_of_mem (h.inside q c' o pc hold)
  · rw [hnone q pc hq] at hpc
    cases hpc
  · rw [hnone q pc hq] at hpc
    cases hpc

/-- A process enters `example_release`. -/
theorem Files.startRelease {s : State Pid} (h : Files s) (hopen : 0 < s.opened)
    (hin : s.inside = ∅) (p : Pid) :
    Files ({ s with opened := s.opened - 1 }.setProc p (.release .lock)) := by
  have hlast : s.opened - 1 = 0 := by have hle := h.opened_le; omega
  have hcount := h.counted hopen
  have hme : ∀ q pc, ({ s with opened := s.opened - 1 }.setProc p (.release .lock)).proc q =
      .release pc → pc.counts = true → q = p := by
    intro q pc hq hpc
    rcases setProc_eq_release hq with ⟨heq, -⟩ | ⟨-, hold⟩
    · exact heq
    · rw [h.not_pending hopen hold] at hpc
      cases hpc
  refine ⟨h.count_nonneg, hlast.le.trans (Nat.zero_le 1), fun _ => hcount, fun q c o pc hq => ?_,
    fun q hq => ?_, fun q pc hq hpc => ⟨hlast, hcount⟩,
    fun q r pc pc' hq hpc hr hpc' => (hme r pc' hr hpc').trans (hme q pc hq hpc).symm⟩
  · rcases setProc_eq_call hq with ⟨-, heq⟩ | ⟨-, hold⟩
    · cases heq
    · exact h.inside q c o pc hold
  · change q ∈ s.inside at hq
    rw [hin] at hq
    cases hq

/-- A process leaves a call. -/
theorem Files.return {s : State Pid} (h : Files s) (p : Pid) :
    Files ({ s with inside := s.inside.erase p }.setProc p .user) := by
  have hold : ∀ q pc, ({ s with inside := s.inside.erase p }.setProc p .user).proc q =
      .release pc → s.proc q = .release pc := by
    intro q pc hq
    rcases setProc_eq_release hq with ⟨-, heq⟩ | ⟨-, hold⟩
    · cases heq
    · exact hold
  refine ⟨h.count_nonneg, h.opened_le, h.counted, fun q c o pc hq => ?_,
    fun q hq => h.calls q (Finset.mem_of_mem_erase hq),
    fun q pc hq hpc => h.pending q pc (hold q pc hq) hpc,
    fun q r pc pc' hq hpc hr hpc' => h.alone q r pc pc' (hold q pc hq) hpc (hold r pc' hr) hpc'⟩
  rcases setProc_eq_call hq with ⟨-, heq⟩ | ⟨hne, hold⟩
  · cases heq
  · exact Finset.mem_erase.2 ⟨hne, h.inside q c o pc hold⟩

theorem files_step {S : Setup} {s s' : State Pid} {act : Act Pid} {out : List (Output Pid)}
    (h : Files s) (hstep : step S s act = some (s', out)) : Files s' := by
  cases stepped_of_step hstep with
  | stays hs' => exact hs' ▸ h
  | opens hmtx hcount hs' => exact hs' ▸ h.open hcount
  | starts p c hp hopen hs' => exact hs' ▸ h.start hopen p c
  | startsRelease p hp hopen hin hs' => exact hs' ▸ h.startRelease hopen hin p
  | calls p c o pc e f hact hp hst hs' =>
    subst hs'
    exact h.move rfl rfl rfl rfl (fun _ _ _ _ => h.inside p c o pc hp) nofun
  | returns p c o ret user advance hp hs' => exact hs' ▸ h.return p
  | releases p pc hp hst => exact h.release hp hst
  | released p ret hp hs' =>
    subst hs'
    exact h.move (x := .user) rfl rfl rfl rfl (fun _ _ _ heq => nomatch heq)
      fun _ heq => nomatch heq
  | completes d status bytes hflight hs' =>
    subst hs'
    exact ⟨h.count_nonneg, h.opened_le, h.counted, h.inside, h.calls, h.pending, h.alone⟩
  | unplugs stmt rest t hact hplan hstmt hs' =>
    subst hs'
    cases unplugStatement_of_unplugStep hstmt with
    | deregisters _ ht | clearsDevice _ ht | locks _ _ _ ht | unlocks _ _ ht
    | touches _ _ _ _ _ _ ht =>
      subst ht
      exact ⟨h.count_nonneg, h.opened_le, h.counted, h.inside, h.calls, h.pending, h.alone⟩

end Update

end IldDrivers.ExampleVII
