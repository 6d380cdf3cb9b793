import IldDrivers.Interrupts.SelectReading

/-!
# How soon `test-select` prints a time

The only reader, in `select` or in its loop, prints the next time after a number of its own statements
that depends on the length of its command line: what remains to be done in the present round, one more
round when the device has been polled in vain or passed, a sleep, and the read. What the others do in
the meantime, interrupts included, does not put it off.

* `rank`: a bound on the statements up to the next text;
* `response_step`: each statement of the process lowers it, and no other step raises it;
* `test_select_responds`: the oldest time is printed first, after `3 * argc + 8` statements at most.
-/

namespace IldDrivers.SelectLoop

open Timestamps (ReadArgs Program kBuffer)

variable {Pid : Type*} [DecidableEq Pid]

/-! ### The rank -/

/-- A statement of the process, its read in the driver and the end of its delay included. -/
def own (p : Pid) : Act Pid → Bool
  | .kernel (.run q) => q = p
  | .run q _ => q = p
  | .timeout q => q = p
  | _ => false

/-- From the call of `select` to the text, for `m` files of which the device is the one of index `d`. -/
def round (m d : ℕ) : ℕ := m + d + 5

/-- A bound on the statements up to the next text of the device. -/
def rank (m d : ℕ) (x : Timestamps.Proc) : Loop → ℕ
  | .reading _ _ => if x.taken.isSome then 1 else 2
  | .service i ready =>
      if i ≤ d ∧ d ∈ ready then (d - i) + 3 else (m - i) + 1 + round m d
  | .select (.poll t i ready _) =>
      if i ≤ d ∨ d ∈ ready then (m - i) + d + 4 + (if t.queued then 0 else 1)
      -- the device has been polled in vain
      else (m - i) + m + 4 + round m d
  | .select (.schedule _) => 2 + round m d
  | .select (.asleep _) => 1 + round m d
  | .ended => 0

variable {m d : ℕ} {x : Timestamps.Proc} {l : Loop}

theorem rank_le (hd : d < m) : rank m d x l ≤ 3 * m + 8 := by
  cases l with
  | select w =>
    cases w with
    | poll t i ready expired =>
      simp only [rank, round]
      split_ifs <;> omega
    | schedule | asleep =>
      simp only [rank, round]
      omega
  | service i ready =>
    simp only [rank, round]
    split_ifs <;> omega
  | reading i ready =>
    simp only [rank]
    split_ifs <;> omega
  | ended => exact Nat.zero_le _

theorem rank_pos (hl : l ≠ .ended) : 0 < rank m d x l := by
  cases l with
  | select w =>
    cases w with
    | poll t i ready expired =>
      simp only [rank]
      split_ifs <;> omega
    | schedule | asleep =>
      simp only [rank]
      omega
  | service i ready =>
    simp only [rank]
    split_ifs <;> omega
  | reading i ready =>
    simp only [rank]
    split_ifs <;> omega
  | ended => exact absurd rfl hl

/-- A round, from its first poll. -/
theorem rank_restart (t : PollTable) (ready : List ℕ) (expired : Bool) :
    rank m d x (.select (.poll t 0 ready expired)) ≤ round m d := by
  simp only [rank, round, Nat.zero_le, true_or, if_true]
  split_ifs <;> omega

theorem rank_wake : rank m d x l.wake ≤ rank m d x l := by
  cases l with
  | select w =>
    cases w with
    | poll | schedule => exact le_rfl
    | asleep t =>
      simp only [Loop.wake, SelectPoint.wake]
      split_ifs
      · have hround := rank_restart (m := m) (d := d) (x := x) ⟨t.queued, false⟩ [] false
        refine hround.trans ?_
        simp only [rank]
        omega
      · exact le_rfl
  | service | reading | ended => exact le_rfl

theorem wake_ne_ended (hl : l ≠ .ended) : l.wake ≠ .ended := by
  cases l with
  | select | service | reading => simp [Loop.wake]
  | ended => exact absurd rfl hl

/-! ### One step -/

variable {abi : Abi} {argv : Pid → List File} {p : Pid} {s s' : State Pid}
  {log out : List (Event Pid)}

/-- The process is in its loop, at a place of a rank that is not greater. -/
def Within (m d : ℕ) (p : Pid) (s : State Pid) (k : ℕ) : Prop :=
  ∃ l, s.loop p = some l ∧ l ≠ .ended ∧ rank m d (s.driver.proc p) l ≤ k

theorem within_setLoop {k : ℕ} (hl : l ≠ .ended) (hle : rank m d (s.driver.proc p) l ≤ k) :
    Within m d p (s.setLoop p l) k := ⟨l, setLoop_self .., hl, hle⟩

/-- A statement in `select`. -/
theorem within_selectStep {r : Reply} {w : SelectPoint} (hsole : Sole argv p d)
    (hsome : 0 < s.driver.data.arrayEnd) (hstep : selectStep (argv p) s p r w = some (s', out)) :
    ∃ k, k < rank (argv p).length d (s.driver.proc p) (.select w) ∧
      Within (argv p).length d p s' k := by
  have hd : d < (argv p).length := (List.getElem?_eq_some_iff.1 hsole.device).1
  cases w with
  | poll t i ready expired =>
    simp only [selectStep] at hstep
    split at hstep
    · rename_i hdevice
      obtain rfl := hsole.once i hdevice
      split_ifs at hstep with hqueued
      · cases hstep
        refine ⟨_, ?_, within_setLoop (by simp) le_rfl⟩
        simp only [rank, List.mem_append, List.mem_singleton, or_true, le_refl, true_or, if_true,
          hqueued]
        omega
      · cases hstep
        refine ⟨_, ?_, within_setLoop (by simp) le_rfl⟩
        simp only [rank, le_refl, true_or, if_true, hqueued, Bool.false_eq_true, if_false]
        omega
    · rename_i hother
      obtain ⟨hi, -⟩ := List.getElem?_eq_some_iff.1 hother
      have hne : i ≠ d := by
        rintro rfl
        rw [hsole.device] at hother
        cases hother
      have hfound : d ∈ (if r.ready then ready ++ [i] else ready) ↔ d ∈ ready := by
        split_ifs
        · rw [List.mem_append, List.mem_singleton]
          exact ⟨fun h => h.resolve_right hne.symm, .inl⟩
        · exact Iff.rfl
      have hbefore : i + 1 ≤ d ↔ i ≤ d := by omega
      cases hstep
      refine ⟨_, ?_, within_setLoop (by simp) le_rfl⟩
      simp only [rank, hfound, hbefore]
      split_ifs <;> omega
    · rename_i hend
      have hlen := List.getElem?_eq_none_iff.1 hend
      split_ifs at hstep with hready
      · cases hstep
        refine ⟨_, ?_, within_setLoop (by simp) le_rfl⟩
        by_cases hmem : d ∈ ready
        · simp only [rank, Nat.zero_le, true_and, hmem, or_true, if_true]
          omega
        · simp only [rank, hmem, and_false, or_false, if_false, if_neg (show ¬ i ≤ d by omega)]
          omega
      · cases hstep
        rw [not_not.1 hready]
        refine ⟨_, ?_, within_setLoop (by simp [Loop.start]) (rank_restart _ _ _)⟩
        simp only [rank, List.not_mem_nil, or_false, if_neg (show ¬ i ≤ d by omega)]
        omega
      · cases hstep
        rw [not_not.1 hready]
        refine ⟨_, ?_, within_setLoop (by simp) le_rfl⟩
        simp only [rank, List.not_mem_nil, or_false, if_neg (show ¬ i ≤ d by omega)]
        omega
  | schedule t =>
    simp only [selectStep] at hstep
    split_ifs at hstep
    · cases hstep
      refine ⟨_, ?_, within_setLoop (by simp) (rank_restart _ _ _)⟩
      simp only [rank]
      omega
    · cases hstep
      refine ⟨_, ?_, within_setLoop (by simp) le_rfl⟩
      simp only [rank]
      omega
  | asleep t => cases hstep

theorem within_loopStep {r : Reply} (hsole : Sole argv p d) (hsome : 0 < s.driver.data.arrayEnd)
    (hstep : loopStep (argv p) s p r l = some (s', out)) :
    s'.driver.data = s.driver.data ∧
    ∃ k, k < rank (argv p).length d (s.driver.proc p) l ∧ Within (argv p).length d p s' k := by
  have hd : d < (argv p).length := (List.getElem?_eq_some_iff.1 hsole.device).1
  refine ⟨?_, ?_⟩
  · obtain ⟨-, ⟨l', rfl⟩ | ⟨i, ready, -, -, -, rfl⟩⟩ := loopStep_cases hstep <;> rfl
  cases l with
  | select w => exact within_selectStep hsole hsome hstep
  | service i ready =>
    simp only [loopStep] at hstep
    split at hstep
    · rename_i hend
      have hlen := List.getElem?_eq_none_iff.1 hend
      cases hstep
      refine ⟨_, ?_, within_setLoop (by simp [Loop.start]) (rank_restart _ _ _)⟩
      simp only [rank, if_neg (show ¬ (i ≤ d ∧ d ∈ ready) by omega)]
      omega
    · rename_i f hf
      obtain ⟨hi, -⟩ := List.getElem?_eq_some_iff.1 hf
      -- the next file, when this is not the device reported
      have hnext : ¬ (i = d ∧ d ∈ ready) →
          rank (argv p).length d (s.driver.proc p) (.service (i + 1) ready) <
            rank (argv p).length d (s.driver.proc p) (.service i ready) := by
        intro hnot
        have hbefore : i + 1 ≤ d ∧ d ∈ ready ↔ i ≤ d ∧ d ∈ ready := by
          constructor
          · exact fun h => ⟨by omega, h.2⟩
          · exact fun h => ⟨lt_of_le_of_ne h.1 fun heq => hnot ⟨heq, h.2⟩, h.2⟩
        simp only [rank, hbefore]
        split_ifs with hin
        · have hlt := (hbefore.2 hin).1
          omega
        · omega
      split_ifs at hstep with hready
      · cases f with
        | device =>
          obtain rfl := hsole.once i hf
          cases hstep
          refine ⟨2, ?_, .reading i ready, setLoop_self .., by simp, ?_⟩
          · simp only [rank, le_refl, hready, and_self, if_true]
            omega
          · simp only [rank]
            split_ifs <;> omega
        | other =>
          cases hstep
          refine ⟨_, hnext ?_, within_setLoop (by simp) le_rfl⟩
          rintro ⟨rfl, -⟩
          rw [hsole.device] at hf
          cases hf
      · cases hstep
        refine ⟨_, hnext ?_, within_setLoop (by simp) le_rfl⟩
        rintro ⟨rfl, hmem⟩
        exact hready hmem
  | reading i ready => cases hstep
  | ended => cases hstep

/-- There is a time to be printed. -/
def Due (p : Pid) (s : State Pid) : Prop :=
  s.driver.data.arrayEnd ≠ 0 ∨ (s.driver.proc p).taken ≠ none

omit [DecidableEq Pid] in
/-- A step that leaves the driver and the loop of the process alone. -/
theorem Within.same {k : ℕ} (h : Within m d p s k) (hloop : s'.loop p = s.loop p)
    (hproc : s'.driver.proc p = s.driver.proc p) : Within m d p s' k := by
  obtain ⟨l, hl, hlive, hle⟩ := h
  exact ⟨l, hloop ▸ hl, hlive, hproc ▸ hle⟩

/-- A statement of the read of the process: it takes the time out, or prints it. -/
theorem response_read {q : Pid} {b : ReadArgs} {pc : Timestamps.ReadPc} {k : ℕ}
    (h : Running abi argv p d s log) (hq : s.driver.proc q = .read b pc)
    (hwithin : Within (argv p).length d p s k)
    (hstep : step abi argv s (.kernel (.run q)) = some (s', out)) :
    printedAt p d out ≠ [] ∨ (Due p s' ∧
      ∃ k', k' + (own p (.kernel (.run q))).toNat ≤ k ∧ Within (argv p).length d p s' k') := by
  obtain ⟨l, hl, hlive, hle⟩ := hwithin
  obtain ⟨rfl, rfl, ready, hready⟩ := h.reads.alone q b pc hq
  rw [hready] at hl
  cases hl
  rcases readKernel_cases h.reads hready hstep with
    ⟨hlock, -, hloop, hdriver, -⟩ | ⟨value, -, -, rfl⟩
  · have htaken : (s'.driver.proc q).taken = some (s.driver.data.array 0) := by
      rw [hdriver, Timestamps.setProc_self]
      rfl
    refine .inr ⟨.inr (by rw [htaken]; simp), 1, ?_, .reading d ready, hloop ▸ hready, hlive, ?_⟩
    · rw [hlock] at hle
      simpa [own, rank, Timestamps.Proc.taken] using hle
    · simp [rank, htaken]
  · exact .inl (by simp [printedAt])

/-- A step of the driver that is not the process's. -/
theorem own_kernel {a : Timestamps.Act Pid} {l : Loop} (h : Running abi argv p d s log)
    (hl : s.loop p = some l) (hreads : ¬ ∃ q b pc, a = .run q ∧ s.driver.proc q = .read b pc)
    (hstep : step abi argv s (.kernel a) = some (s', out)) : own p (.kernel a) = false := by
  cases a with
  | run q =>
    refine decide_eq_false fun hqp => ?_
    subst hqp
    obtain ⟨dr, dout, -, hdriver, -⟩ := kernel_cases hstep
    by_cases hreading : l.isReading = true
    · cases l with
      | reading i ready =>
        obtain ⟨-, ⟨hlock, -⟩ | ⟨value, hformat⟩⟩ := h.reads.found i ready hl
        · exact hreads ⟨q, _, _, rfl, hlock⟩
        · exact hreads ⟨q, _, _, rfl, hformat⟩
      | select | service | ended => cases hreading
    · have hout := h.seated q l hl fun i ready heq => hreading (heq ▸ rfl)
      simp [Program.step, hout] at hdriver
  | tick | interrupt | read | signal => rfl

/-- The driver goes on elsewhere, and may wake the process. -/
theorem response_kernel {a : Timestamps.Act Pid} {k : ℕ} (h : Running abi argv p d s log)
    (hread : NoRead (.kernel a)) (hreads : ¬ ∃ q b pc, a = .run q ∧ s.driver.proc q = .read b pc)
    (hdue : Due p s) (hwithin : Within (argv p).length d p s k)
    (hstep : step abi argv s (.kernel a) = some (s', out)) :
    Due p s' ∧ ∃ k', k' + (own p (.kernel a)).toNat ≤ k ∧ Within (argv p).length d p s' k' := by
  obtain ⟨l, hl, hlive, hle⟩ := hwithin
  obtain ⟨-, hsome, hloop, hpc⟩ := reads_otherKernel h.reads h.waking.driver.queued.nonneg
    (fun q b ha => hread q b (ha ▸ rfl)) (fun q b pc ha hq => hreads ⟨q, b, pc, ha, hq⟩) hstep
  have htaken : (s'.driver.proc p).taken = (s.driver.proc p).taken := by
    cases hp : s.driver.proc p with
    | read b pc => rw [(hpc b pc).2 hp]
    | outside | handlerLock | handlerWake =>
      cases hp' : s'.driver.proc p with
      | read b pc =>
        rw [(hpc b pc).1 hp'] at hp
        cases hp
      | outside | handlerLock | handlerWake => rfl
  have hrank : ∀ l', rank (argv p).length d (s'.driver.proc p) l' =
      rank (argv p).length d (s.driver.proc p) l' := by
    intro l'
    cases l' with
    | select w => cases w <;> rfl
    | reading i ready => simp only [rank, htaken]
    | service | ended => rfl
  refine ⟨?_, k, by simp [own_kernel h hl hreads hstep], ?_⟩
  · rcases hdue with hne | htime
    · exact .inl (hsome hne)
    · exact .inr (by rwa [htaken])
  · have hcases : wakeStep s a p = some l ∨ wakeStep s a p = some l.wake := by
      unfold wakeStep
      split
      · split_ifs
        · exact .inr (by rw [wakeAll, hl]; rfl)
        · exact .inl hl
      · exact .inl hl
    rcases hcases with hsame | hwoken
    · exact ⟨l, by rw [hloop, hsame], hlive, (hrank l).trans_le hle⟩
    · exact ⟨l.wake, by rw [hloop, hwoken], wake_ne_ended hlive,
        (hrank l.wake).trans_le (rank_wake.trans hle)⟩

/-- **One step**: it prints a text of the device, or there is a time to be printed still, and the rank
is lower when the statement is one of the process, and not higher when it is another's. -/
theorem response_step {a : Act Pid} {k : ℕ} (h : Running abi argv p d s log) (hsole : Sole argv p d)
    (hread : NoRead a) (hsignal : a ≠ .signal p) (hdue : Due p s)
    (hwithin : Within (argv p).length d p s k) (hstep : step abi argv s a = some (s', out)) :
    printedAt p d out ≠ [] ∨ (Due p s' ∧
      ∃ k', k' + (own p a).toNat ≤ k ∧ Within (argv p).length d p s' k') := by
  obtain ⟨l, hl, hlive, hle⟩ := hwithin
  have hnonneg := h.waking.driver.queued.nonneg
  have hproc : s.driver.data.arrayEnd = 0 → l.isReading = true := by
    intro hempty
    have htaken := hdue.resolve_left (not_not.2 hempty)
    by_contra hnot
    refine htaken ?_
    rw [h.seated p l hl fun i ready hreading => hnot (hreading ▸ rfl)]
    rfl
  cases a with
  | kernel a =>
    by_cases hreads : ∃ q b pc, a = .run q ∧ s.driver.proc q = .read b pc
    · obtain ⟨q, b, pc, rfl, hq⟩ := hreads
      exact response_read h hq ⟨l, hl, hlive, hle⟩ hstep
    · exact .inr (response_kernel h hread hreads hdue ⟨l, hl, hlive, hle⟩ hstep)
  | start q =>
    simp only [step] at hstep
    split_ifs at hstep with hq
    have hqp : p ≠ q := by
      rintro rfl
      rw [hq.1] at hl
      cases hl
    cases hstep
    exact .inr ⟨hdue, k, le_rfl, Within.same ⟨l, hl, hlive, hle⟩ (setLoop_of_ne hqp ..) rfl⟩
  | run q r =>
    simp only [step] at hstep
    split at hstep
    · rename_i l₀ hl₀
      by_cases hqp : q = p
      · subst hqp
        rw [hl₀] at hl
        cases hl
        have hsome : 0 < s.driver.data.arrayEnd := by
          by_contra hnot
          have hreading := hproc (by omega)
          cases l with
          | reading i ready => cases hstep
          | select | service | ended => cases hreading
        obtain ⟨hdata, k', hlt, hwithin⟩ := within_loopStep hsole hsome hstep
        refine .inr ⟨.inl (by rw [hdata]; exact hsome.ne'), k', ?_, hwithin⟩
        simp only [own, decide_true, Bool.toNat_true]
        omega
      · have hown : own p (.run q r) = false := decide_eq_false hqp
        obtain ⟨-, ⟨l', rfl⟩ | ⟨i, ready, hdevice, -, -, -⟩⟩ := loopStep_cases hstep
        · exact .inr ⟨hdue, k, by simp [hown], Within.same ⟨l, hl, hlive, hle⟩
            (setLoop_of_ne (Ne.symm hqp) ..) rfl⟩
        · exact absurd (List.mem_of_getElem? hdevice) (hsole.others q hqp)
    · cases hstep
  | timeout q =>
    simp only [step] at hstep
    split at hstep
    · rename_i t hq
      cases hstep
      refine .inr ⟨hdue, ?_⟩
      by_cases hqp : q = p
      · subst hqp
        rw [hq] at hl
        cases hl
        refine ⟨round (argv q).length d, ?_, within_setLoop (by simp) (rank_restart _ _ _)⟩
        simp only [rank] at hle
        simp only [own, decide_true, Bool.toNat_true]
        omega
      · have hown : own p (.timeout q) = false := decide_eq_false hqp
        exact ⟨k, by simp [hown], Within.same ⟨l, hl, hlive, hle⟩
          (setLoop_of_ne (Ne.symm hqp) ..) rfl⟩
    · cases hstep
  | signal q =>
    have hqp : p ≠ q := fun hpq => hsignal (hpq ▸ rfl)
    simp only [step] at hstep
    split at hstep
    · cases hstep
      exact .inr ⟨hdue, k, le_rfl, Within.same ⟨l, hl, hlive, hle⟩ (setLoop_of_ne hqp ..) rfl⟩
    · cases hstep

/-! ### A whole run -/

variable {acts as : List (Act Pid)} {log' : List (Event Pid)}

/-- A run in which nothing is printed of the device has fewer statements of the process than the rank
of its place. -/
theorem response_run {k : ℕ} (h : Running abi argv p d s log) (hsole : Sole argv p d)
    (hread : ∀ a ∈ as, NoRead a) (hsignal : .signal p ∉ as) (hdue : Due p s)
    (hwithin : Within (argv p).length d p s k)
    (hrun : (system abi argv).exec s as = some (s', log')) :
    printedAt p d log' ≠ [] ∨ as.countP (own p) < k := by
  induction as generalizing s log log' k with
  | nil =>
    obtain ⟨l, -, hlive, hle⟩ := hwithin
    exact .inr (lt_of_lt_of_le (rank_pos hlive) hle)
  | cons a as ih =>
    obtain ⟨t, out, outs, hstep, hrest, rfl⟩ := System.exec_cons.1 hrun
    have hfirst : a ≠ .signal p := fun heq => hsignal (heq ▸ List.mem_cons_self)
    have hnext := running_step h hsole (hread a List.mem_cons_self) hstep
    rw [printedAt_append, List.countP_cons]
    rcases response_step h hsole (hread a List.mem_cons_self) hfirst hdue hwithin hstep with
      hprinted | ⟨hdue', k', hle, hwithin'⟩
    · exact .inl (by simp [hprinted])
    · rcases ih hnext (fun b hb => hread b (List.mem_cons_of_mem a hb))
        (fun hmem => hsignal (List.mem_cons_of_mem a hmem)) hdue' hwithin' hrest with
        hprinted | hcount
      · exact .inl (by simp [hprinted])
      · refine .inr ?_
        cases hown : own p a with
        | false => simpa [hown] using lt_of_lt_of_le hcount (by simpa [hown] using hle)
        | true =>
          simp only [hown, Bool.toNat_true] at hle
          simp only [if_true]
          omega

variable {array : Memory ℕ} {jiffies : ℕ}

/-- **A bound on the delay.** When one process only reads the device, and has it once among its files:
from any state of a run in which a time is pending and the process is in its loop, whatever the others
do, it prints a text of the device before it has made `3 * argc + 8` statements; the first one is that of
the time it has in its buffer, or else of the oldest time pending. -/
theorem test_select_responds (hsole : Sole argv p d) (hread : ∀ a ∈ acts ++ as, NoRead a)
    (hrun : (system abi argv).exec (init Pid array jiffies) acts = some (s, log))
    (hrest : (system abi argv).exec s as = some (s', log')) {l : Loop} (hloop : s.loop p = some l)
    (hlive : l ≠ .ended) (hsome : 0 < s.driver.data.arrayEnd) (hsignal : .signal p ∉ as)
    (hcount : 3 * (argv p).length + 8 ≤ as.countP (own p)) :
    ∃ text, (printedAt p d log').head? = some text ∧
      (((s.driver.proc p).taken.toList ++ s.driver.data.pending).map (kBuffer abi)).head? =
        some text := by
  have hbefore : ∀ a ∈ acts, NoRead a := fun a ha => hread a (List.mem_append_left as ha)
  have hafter : ∀ a ∈ as, NoRead a := fun a ha => hread a (List.mem_append_right acts ha)
  have hd : d < (argv p).length := (List.getElem?_eq_some_iff.1 hsole.device).1
  have hrunning := running_of_run hsole hbefore hrun
  have hprinted : printedAt p d log' ≠ [] := by
    refine (response_run hrunning hsole hafter hsignal (.inl hsome.ne')
      ⟨l, hloop, hlive, le_rfl⟩ hrest).resolve_right ?_
    have hle := rank_le (x := s.driver.proc p) (l := l) hd
    omega
  -- what is printed in both parts of the run is what has been recorded in the first, and more
  have hboth := running_of_run hsole hread (System.exec_append hrun hrest)
  have htexts : printedAt p d log' ++ (s'.driver.proc p).taken.toList.map (kBuffer abi) =
      (s.driver.proc p).taken.toList.map (kBuffer abi) ++
        (Timestamps.removed (driverLog log')).map (kBuffer abi) := by
    have hall := hboth.reads.printed
    rw [printedAt_append, driverLog_append, Timestamps.removed_append, List.map_append,
      ← hrunning.reads.printed, List.append_assoc, List.append_assoc] at hall
    exact List.append_cancel_left hall
  have hqueue : s.driver.data.pending ++ Timestamps.recorded (driverLog log') =
      Timestamps.removed (driverLog log') ++ s'.driver.data.pending := by
    have hall := hboth.waking.driver.queued.removed_append
    rw [driverLog_append, Timestamps.removed_append, Timestamps.recorded_append,
      ← hrunning.waking.driver.queued.removed_append, List.append_assoc, List.append_assoc] at hall
    exact (List.append_cancel_left hall).symm
  have hpending : s.driver.data.pending ≠ [] := by
    intro hempty
    have hlen := Timestamps.ExampleData.pending_length hrunning.waking.driver.queued.nonneg
    rw [hempty] at hlen
    simp only [List.length_nil, Nat.cast_zero] at hlen
    omega
  obtain ⟨text, texts, hhead⟩ := List.exists_cons_of_ne_nil hprinted
  obtain ⟨time, times, htimes⟩ := List.exists_cons_of_ne_nil hpending
  refine ⟨text, by rw [hhead]; rfl, ?_⟩
  rw [hhead] at htexts
  rw [htimes] at hqueue ⊢
  cases htaken : (s.driver.proc p).taken with
  | some value =>
    rw [htaken] at htexts
    simp only [Option.toList_some, List.map_cons, List.map_nil, List.cons_append,
      List.cons.injEq] at htexts
    simp [htexts.1]
  | none =>
    rw [htaken] at htexts
    cases hremoved : Timestamps.removed (driverLog log') with
    | nil =>
      rw [hremoved] at htexts
      simp at htexts
    | cons first others =>
      rw [hremoved] at htexts hqueue
      simp only [List.cons_append, List.cons.injEq] at hqueue
      simp only [Option.toList_none, List.map_nil, List.nil_append, List.map_cons,
        List.cons_append, List.cons.injEq] at htexts
      simp [htexts.1, hqueue.1]

theorem test_select_responds_one :
    ∃ (s s' : State Bool) (log log' : List (Event Bool)),
      (system .lp64 onlyDevice).exec (init Bool (fun _ => 0) 7) recordOne = some (s, log) ∧
      (system .lp64 onlyDevice).exec s printOne = some (s', log') ∧
      (printedAt true 0 log').head? = some (kBuffer .lp64 7) := by
  obtain ⟨⟨s, log⟩, hrun, hval⟩ := Option.map_eq_some_iff.1
    (show ((system .lp64 onlyDevice).exec (init Bool (fun _ => 0) 7) recordOne).map
        (fun r => (r.1.loop true, r.1.driver.data.arrayEnd, r.1.driver.data.pending,
          r.1.driver.proc true, (system .lp64 onlyDevice).exec r.1 printOne |>.isSome)) =
      some (some .start, 1, [7], .outside, true) by decide +kernel)
  simp only [Prod.mk.injEq] at hval
  obtain ⟨hloop, hend, hpending, hout, hsome⟩ := hval
  obtain ⟨⟨s', log'⟩, hrest⟩ := Option.isSome_iff_exists.1 hsome
  obtain ⟨text, hprinted, hfirst⟩ := test_select_responds sole_onlyDevice noRead_printOne hrun hrest
    hloop (by simp [Loop.start]) (by rw [hend]; decide)
    (by simp [printOne]) (by decide)
  rw [hout, hpending] at hfirst
  cases hfirst
  exact ⟨s, s', log, log', hrun, hrest, hprinted⟩

end IldDrivers.SelectLoop
