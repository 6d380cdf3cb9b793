import IldDrivers.Interrupts.SelectWaking
import IldDrivers.Interrupts.Text

/-!
# What `test-select` reads

`select` reports the device when its poll has found a time, and `example_read` takes the first one
later on. When the process is the only reader and names the device once, the time is still there: the
read does not sleep, and its text has room in the buffer.

* `Sole`: the process is the only one to read the device;
* `Reads`: where its read is, and what it has printed;
* `test_select_prints`: it prints every time once, in order, and never sleeps in a read.
-/

namespace IldDrivers.SelectLoop

open Timestamps (ReadArgs Program kBuffer)

variable {Pid : Type*} [DecidableEq Pid]

/-! ### A read that finds a time -/

section Driver

open Timestamps (setProc_of_ne setProc_self)

variable {abi : Abi} {s s' : Timestamps.State Pid} {a : Timestamps.Act Pid}
  {out : List (Timestamps.Event Pid)} {p : Pid}

theorem kBuffer_length_lt (abi : Abi) (value : ℕ) : (kBuffer abi value).length < 80 := by
  unfold kBuffer
  rw [List.length_take]
  omega

/-- There is a time: it is taken out. -/
theorem lock_step (hp : s.proc p = .read lgBuffer .lock) (hsome : s.data.arrayEnd ≠ 0)
    (hstep : Program.exampleSelect.step abi s (.run p) = some (s', out)) :
    s' = { s with data := s.data.removeFirst }.setProc p
        (.read lgBuffer (.format (s.data.array 0))) ∧
      out = [.removed p (s.data.array 0)] := by
  have hroom : ¬ lgBuffer.length < (kBuffer abi (s.data.array 0)).length + 1 := by
    have hlt := kBuffer_length_lt abi (s.data.array 0)
    simp only [lgBuffer]
    omega
  simp only [Program.step, hp, Program.readStep, Timestamps.readStep, hsome, hroom, and_false,
    if_false, Option.some.injEq, Prod.mk.injEq] at hstep
  exact ⟨hstep.1.symm, hstep.2.symm⟩

/-- The copy does not fail. -/
theorem format_step {value : ℕ} (hp : s.proc p = .read lgBuffer (.format value))
    (hstep : Program.exampleSelect.step abi s (.run p) = some (s', out)) :
    s' = s.setProc p .outside ∧
      out = [.returned p ((kBuffer abi value).length + 1) (kBuffer abi value ++ [0])] := by
  have hlt := kBuffer_length_lt abi value
  have hcopied : copyToUser (kBuffer abi value ++ [0]) lgBuffer.copied =
      (kBuffer abi value ++ [0], 0) := by
    have hle : (kBuffer abi value ++ [0]).length ≤ 4096 := by
      rw [List.length_append, List.length_singleton]
      omega
    simp only [copyToUser, lgBuffer, Prod.mk.injEq]
    exact ⟨List.take_of_length_le hle, Nat.sub_eq_zero_of_le hle⟩
  simp only [Program.step, hp, Program.readStep, Timestamps.transfer, hcopied, ne_eq,
    not_true_eq_false, if_false, Option.some.injEq, Prod.mk.injEq] at hstep
  exact ⟨hstep.1.symm, hstep.2.symm⟩

/-- A step that is not one of a read: times are stored, and those who read stay where they are. -/
theorem other_step (hnonneg : 0 ≤ s.data.arrayEnd) (hread : ∀ q b, a ≠ .read q b)
    (hrun : ∀ q b pc, a = .run q → s.proc q ≠ .read b pc)
    (hwait : ∀ q b w, s.proc q ≠ .read b (.wait w))
    (hstep : Program.exampleSelect.step abi s a = some (s', out)) :
    (s.data.arrayEnd ≠ 0 → s'.data.arrayEnd ≠ 0) ∧
    (∀ q b pc, s'.proc q = .read b pc ↔ s.proc q = .read b pc) ∧
    (out = [] ∨ (∃ j, out = [.recorded j]) ∨ ∃ j, out = [.dropped j]) := by
  -- a process that goes from one place out of `example_read` to another
  have hmoved : ∀ (t : Timestamps.State Pid) (p : Pid) (x : Timestamps.Proc), t.proc = s.proc →
      (∀ b pc, s.proc p ≠ .read b pc) → (∀ b pc, x ≠ .read b pc) →
      ∀ q b pc, (t.setProc p x).proc q = .read b pc ↔ s.proc q = .read b pc := by
    intro t p x ht hp hx q b pc
    by_cases hq : q = p
    · rw [hq, setProc_self]
      exact ⟨fun h => absurd h (hx b pc), fun h => absurd h (hp b pc)⟩
    · rw [setProc_of_ne hq, ht]
  cases a with
  | tick =>
    cases hstep
    exact ⟨id, fun _ _ _ => Iff.rfl, .inl rfl⟩
  | interrupt p =>
    simp only [Program.step, Timestamps.step] at hstep
    split at hstep
    · rename_i hp
      cases hstep
      exact ⟨id, hmoved s p _ rfl (by simp [hp]) (by simp), .inl rfl⟩
    · cases hstep
  | read p b => exact absurd rfl (hread p b)
  | run p =>
    cases hp : s.proc p with
    | outside => simp [Program.step, hp] at hstep
    | handlerLock =>
      simp only [Program.step, hp] at hstep
      split_ifs at hstep
      · cases hstep
        refine ⟨fun _ => ?_, hmoved _ p _ rfl (by simp [hp]) (by simp [Program.handled]),
          .inr (.inl ⟨_, rfl⟩)⟩
        change s.data.arrayEnd + 1 ≠ 0
        omega
      · cases hstep
        exact ⟨id, hmoved s p _ rfl (by simp [hp]) (by simp [Program.handled]),
          .inr (.inr ⟨_, rfl⟩)⟩
    | handlerWake =>
      simp only [Program.step, hp] at hstep
      cases hstep
      have hwoken : Timestamps.wakeUp s.proc = s.proc := by
        refine funext fun q => ?_
        unfold Timestamps.wakeUp
        split
        · rename_i b w hq
          exact absurd hq (hwait q b w)
        · rfl
      rw [hwoken]
      exact ⟨id, hmoved s p _ rfl (by simp [hp]) (by simp), .inl rfl⟩
    | read b pc => exact absurd hp (hrun p b pc rfl)
  | signal p =>
    simp only [Program.step, Timestamps.step] at hstep
    split at hstep
    · rename_i b w hp
      exact absurd hp (hwait p b w)
    · cases hstep

end Driver

/-! ### The only reader -/

/-- The process `p` has the device for file `d` and for no other, and nobody else has it. -/
structure Sole (argv : Pid → List File) (p : Pid) (d : ℕ) : Prop where
  device : (argv p)[d]? = some .device
  once : ∀ i, (argv p)[i]? = some .device → i = d
  others : ∀ q, q ≠ p → .device ∉ argv q

/-- No other program reads the device. -/
def NoRead (a : Act Pid) : Prop := ∀ q b, a ≠ .kernel (.read q b)

/-- What the process has printed of the file. -/
def printedAt (p : Pid) (d : ℕ) (log : List (Event Pid)) : List (List UInt8) :=
  log.filterMap fun e => match e with
    | .printed q i text => if q = p ∧ i = d then some text else none
    | _ => none

theorem printedAt_append (p : Pid) (d : ℕ) (log log' : List (Event Pid)) :
    printedAt p d (log ++ log') = printedAt p d log ++ printedAt p d log' := List.filterMap_append

theorem printedAt_map_kernel (p : Pid) (d : ℕ) (out : List (Timestamps.Event Pid)) :
    printedAt p d (out.map .kernel) = [] := by
  induction out with
  | nil => rfl
  | cons e out ih => exact ih

variable {abi : Abi} {argv : Pid → List File} {p : Pid} {d : ℕ} {s s' : State Pid}
  {log out : List (Event Pid)}

def Loop.isReading : Loop → Bool
  | .reading _ _ => true
  | _ => false

/-- A device reported, and not read yet, is ready still. -/
def Loop.Keeps (d : ℕ) (ready_ : Prop) : Loop → Prop
  | .select (.poll _ _ ready _) => d ∈ ready → ready_
  | .service i ready => i ≤ d → d ∈ ready → ready_
  | _ => True

theorem Loop.Keeps.mono {P Q : Prop} {l : Loop} (h : l.Keeps d P) (hPQ : P → Q) : l.Keeps d Q := by
  cases l with
  | select w =>
    cases w with
    | poll t i ready expired => exact fun hd => hPQ (h hd)
    | schedule | asleep => trivial
  | service i ready => exact fun hi hd => hPQ (h hi hd)
  | reading | ended => trivial

theorem Loop.Keeps.wake {P : Prop} {l : Loop} (h : l.Keeps d P) : l.wake.Keeps d P := by
  cases l with
  | select w =>
    cases w with
    | poll t i ready expired => exact h
    | schedule t => trivial
    | asleep t =>
      simp only [Loop.wake, SelectPoint.wake]
      split_ifs
      · exact fun hd => absurd hd List.not_mem_nil
      · trivial
  | service | reading | ended => exact h

/-- What the only reader does. -/
structure Reads (abi : Abi) (p : Pid) (d : ℕ) (s : State Pid) (log : List (Event Pid)) : Prop where
  /-- Only this process reads, and only the file `d`. -/
  alone : ∀ q b pc, s.driver.proc q = .read b pc →
    q = p ∧ b = lgBuffer ∧ ∃ ready, s.loop p = some (.reading d ready)
  /-- Its read has found a time, or is about to. -/
  found : ∀ i ready, s.loop p = some (.reading i ready) →
    i = d ∧ ((s.driver.proc p = .read lgBuffer .lock ∧ s.driver.data.arrayEnd ≠ 0) ∨
      ∃ value, s.driver.proc p = .read lgBuffer (.format value))
  keeps : ∀ l, s.loop p = some l → l.Keeps d (s.driver.data.arrayEnd ≠ 0)
  /-- It has printed the texts of the times taken out, but for the one of the call in progress. -/
  printed : printedAt p d log ++ (s.driver.proc p).taken.toList.map (kBuffer abi) =
    (Timestamps.removed (driverLog log)).map (kBuffer abi)

theorem reads_init (array : Memory ℕ) (jiffies : ℕ) :
    Reads abi p d (init Pid array jiffies) [] where
  alone := by
    intro q b pc hq
    cases hq
  found := by
    intro i ready hp
    cases hp
  keeps := by
    intro l hp
    cases hp
  printed := rfl

/-- Nobody sleeps in `example_read`. -/
theorem Reads.no_wait (h : Reads abi p d s log) (q : Pid) (b : ReadArgs) (w : WaitPoint) :
    s.driver.proc q ≠ .read b (.wait w) := by
  intro hq
  obtain ⟨rfl, rfl, ready, hready⟩ := h.alone q b _ hq
  rcases (h.found d ready hready).2 with ⟨hlock, -⟩ | ⟨value, hformat⟩
  · rw [hq] at hlock
    cases hlock
  · rw [hq] at hformat
    cases hformat

/-- A process goes on, outside of `read`. -/
theorem Reads.setLoop (h : Reads abi p d s log) {q : Pid} {l : Loop}
    (hq : q = p → l.Keeps d (s.driver.data.arrayEnd ≠ 0) ∧ l.isReading = false ∧
      ∀ l', s.loop p = some l' → l'.isReading = false)
    (hlog : driverLog out = []) (hprinted : printedAt p d out = []) :
    Reads abi p d (s.setLoop q l) (log ++ out) where
  alone := by
    intro r b pc hr
    obtain ⟨rfl, rfl, ready, hready⟩ := h.alone r b pc hr
    refine ⟨rfl, rfl, ready, ?_⟩
    by_cases hqr : q = r
    · exact absurd ((hq hqr).2.2 _ hready) (by simp [Loop.isReading])
    · rw [setLoop_of_ne (Ne.symm hqr), hready]
  found := by
    intro i ready hp
    by_cases hqp : q = p
    · subst hqp
      rw [setLoop_self] at hp
      cases hp
      exact absurd (hq rfl).2.1 (by simp [Loop.isReading])
    · rw [setLoop_of_ne (Ne.symm hqp)] at hp
      exact h.found i ready hp
  keeps := by
    intro l' hp
    by_cases hqp : q = p
    · subst hqp
      rw [setLoop_self] at hp
      cases hp
      exact (hq rfl).1
    · rw [setLoop_of_ne (Ne.symm hqp)] at hp
      exact h.keeps l' hp
  printed := by
    rw [printedAt_append, hprinted, List.append_nil, driverLog_append, hlog, List.append_nil]
    exact h.printed

/-! ### Its statements -/

/-- Another process goes on. -/
theorem Reads.other (h : Reads abi p d s log) {q : Pid} {l : Loop} (hq : q ≠ p)
    (hlog : driverLog out = []) (hprinted : printedAt p d out = []) :
    Reads abi p d (s.setLoop q l) (log ++ out) :=
  h.setLoop (fun heq => absurd heq hq) hlog hprinted

/-- What a process that is not the only reader prints. -/
theorem printedAt_of_ne {q : Pid} (hq : q ≠ p) (i : ℕ) (text : Option (List UInt8)) :
    printedAt p d (text.map fun buffer => Event.printed q i (cstring buffer)).toList = [] := by
  cases text with
  | none => rfl
  | some buffer => simp [printedAt, hq]

theorem printedAt_of_ne_index {i : ℕ} (hi : i ≠ d) (q : Pid) (text : Option (List UInt8)) :
    printedAt p d (text.map fun buffer => Event.printed q i (cstring buffer)).toList = [] := by
  cases text with
  | none => rfl
  | some buffer => simp [printedAt, hi]

theorem reads_selectStep {q : Pid} {r : Reply} {w : SelectPoint} (h : Reads abi p d s log)
    (hsole : Sole argv p d) (hq : s.loop q = some (.select w))
    (hstep : selectStep (argv q) s q r w = some (s', out)) : Reads abi p d s' (log ++ out) := by
  -- the process is not in `read`, so that all depends on what it keeps
  have hnot : q = p → ∀ l', s.loop p = some l' → l'.isReading = false := by
    rintro rfl l' hp
    rw [hq] at hp
    cases hp
    rfl
  cases w with
  | poll t i ready expired =>
    have hkeeps : q = p → (d ∈ ready → s.driver.data.arrayEnd ≠ 0) := by
      rintro rfl
      exact h.keeps _ hq
    simp only [selectStep] at hstep
    split at hstep
    · split_ifs at hstep with hqueued hsome
      · cases hstep
        exact h.setLoop (fun hqp => ⟨fun _ => hsome.ne', rfl, hnot hqp⟩) rfl rfl
      · cases hstep
        exact h.setLoop (fun hqp => ⟨hkeeps hqp, rfl, hnot hqp⟩) rfl rfl
      · cases hstep
        exact h.setLoop (fun hqp => ⟨hkeeps hqp, rfl, hnot hqp⟩) rfl rfl
    · rename_i hother
      cases hstep
      refine h.setLoop (fun hqp => ⟨fun hmem => ?_, rfl, hnot hqp⟩) rfl rfl
      split_ifs at hmem
      · rcases List.mem_append.1 hmem with hmem | hmem
        · exact hkeeps hqp hmem
        · obtain rfl := List.mem_singleton.1 hmem
          rw [hqp, hsole.device] at hother
          cases hother
      · exact hkeeps hqp hmem
    · split_ifs at hstep
      · cases hstep
        exact h.setLoop (fun hqp => ⟨fun _ => hkeeps hqp, rfl, hnot hqp⟩) rfl
          rfl
      · cases hstep
        exact h.setLoop (fun hqp => ⟨fun hmem => absurd hmem List.not_mem_nil,
          rfl, hnot hqp⟩) rfl rfl
      · cases hstep
        exact h.setLoop (fun hqp => ⟨trivial, rfl, hnot hqp⟩) rfl rfl
  | schedule t =>
    simp only [selectStep] at hstep
    split_ifs at hstep
    · cases hstep
      exact h.setLoop (fun hqp => ⟨fun hmem => absurd hmem List.not_mem_nil,
        rfl, hnot hqp⟩) rfl rfl
    · cases hstep
      exact h.setLoop (fun hqp => ⟨trivial, rfl, hnot hqp⟩) rfl rfl
  | asleep t => cases hstep

theorem reads_loopStep {q : Pid} {r : Reply} {l : Loop} (h : Reads abi p d s log)
    (hsole : Sole argv p d) (hseated : Seated s) (hq : s.loop q = some l)
    (hstep : loopStep (argv q) s q r l = some (s', out)) : Reads abi p d s' (log ++ out) := by
  cases l with
  | select w => exact reads_selectStep h hsole hq hstep
  | service i ready =>
    have hnot : q = p → ∀ l', s.loop p = some l' → l'.isReading = false := by
      rintro rfl l' hp
      rw [hq] at hp
      cases hp
      rfl
    simp only [loopStep] at hstep
    split at hstep
    · cases hstep
      exact h.setLoop (fun hqp => ⟨fun hmem => absurd hmem List.not_mem_nil, rfl, hnot hqp⟩) rfl rfl
    · rename_i f hf
      have hkeeps : q = p → i + 1 ≤ d → d ∈ ready → s.driver.data.arrayEnd ≠ 0 := by
        rintro rfl hi hd
        exact h.keeps _ hq (by omega) hd
      split_ifs at hstep with hready
      · cases f with
        | device =>
          cases hstep
          have hqp : q = p := by
            by_contra hne
            exact hsole.others q hne (List.mem_of_getElem? hf)
          subst hqp
          obtain rfl := hsole.once i hf
          have hsome := h.keeps _ hq le_rfl hready
          have hout : s.driver.proc q = .outside := hseated q _ hq fun _ _ hl => by cases hl
          refine ⟨fun t b pc ht => ?_, fun j ready' hj => ?_, fun l' hl' => ?_, ?_⟩
          · by_cases htq : t = q
            · subst htq
              have ht' : (s.driver.setProc t (.read lgBuffer .lock)).proc t = .read b pc := ht
              rw [Timestamps.setProc_self] at ht'
              cases ht'
              exact ⟨rfl, rfl, ready, setLoop_self ..⟩
            · have ht' : (s.driver.setProc q (.read lgBuffer .lock)).proc t = .read b pc := ht
              rw [Timestamps.setProc_of_ne htq] at ht'
              exact absurd (h.alone t b pc ht').1 htq
          · rw [setLoop_self] at hj
            cases hj
            exact ⟨rfl, .inl ⟨Timestamps.setProc_self .., hsome⟩⟩
          · rw [setLoop_self] at hl'
            cases hl'
            trivial
          · have hprinted := h.printed
            rw [hout] at hprinted
            change printedAt q i (log ++ []) ++
              ((s.driver.setProc q (.read lgBuffer .lock)).proc q).taken.toList.map (kBuffer abi) =
                (Timestamps.removed (driverLog (log ++ []))).map (kBuffer abi)
            rw [Timestamps.setProc_self, List.append_nil]
            exact hprinted
        | other =>
          cases hstep
          refine h.setLoop (fun hqp => ⟨hkeeps hqp, rfl, hnot hqp⟩) ?_ ?_
          · cases r.text <;> rfl
          · by_cases hqp : q = p
            · subst hqp
              refine printedAt_of_ne_index ?_ q r.text
              rintro rfl
              rw [hsole.device] at hf
              cases hf
            · exact printedAt_of_ne hqp i r.text
      · cases hstep
        exact h.setLoop (fun hqp => ⟨hkeeps hqp, rfl, hnot hqp⟩) rfl rfl
  | reading i ready => cases hstep
  | ended => cases hstep

/-! ### The steps of the driver -/

/-- A step of the driver's that is not one of the read. -/
theorem reads_otherKernel {a : Timestamps.Act Pid} (h : Reads abi p d s log)
    (hnonneg : 0 ≤ s.driver.data.arrayEnd) (hread : ∀ q b, a ≠ .read q b)
    (hother : ∀ q b pc, a = .run q → s.driver.proc q ≠ .read b pc)
    (hstep : step abi argv s (.kernel a) = some (s', out)) :
    Reads abi p d s' (log ++ out) ∧ (s.driver.data.arrayEnd ≠ 0 → s'.driver.data.arrayEnd ≠ 0) ∧
      s'.loop = wakeStep s a ∧ (∀ b pc, s'.driver.proc p = .read b pc ↔ s.driver.proc p = .read b pc) := by
  obtain ⟨dr, dout, -, hdriver, hresume, rfl, rfl⟩ := kernel_cases hstep
  obtain ⟨hsome, hproc, hout⟩ := other_step hnonneg hread hother h.no_wait hdriver
  have hsame : resume ⟨s'.driver, wakeStep s a⟩ (driverLog out) =
      (⟨s'.driver, wakeStep s a⟩, (driverLog out).map .kernel) := by
    rcases hout with hout | ⟨j, hout⟩ | ⟨j, hout⟩ <;> rw [hout] <;> rfl
  rw [hsame] at hresume
  obtain ⟨hs', hout'⟩ := Prod.mk.inj hresume
  have hloop : s'.loop = wakeStep s a := (congrArg State.loop hs').symm
  have hprinted : printedAt p d out = [] := hout' ▸ printedAt_map_kernel p d _
  have hremoved : Timestamps.removed (driverLog out) = [] := by
    rcases hout with hout | ⟨j, hout⟩ | ⟨j, hout⟩ <;> rw [hout] <;> rfl
  have htaken : (s'.driver.proc p).taken = (s.driver.proc p).taken := by
    cases hp : s.driver.proc p with
    | read b pc => rw [(hproc p b pc).2 hp]
    | outside | handlerLock | handlerWake =>
      cases hp' : s'.driver.proc p with
      | read b pc =>
        rw [(hproc p b pc).1 hp'] at hp
        cases hp
      | outside | handlerLock | handlerWake => rfl
  refine ⟨⟨fun q b pc hq => ?_, fun i ready hp => ?_, fun l hp => ?_, ?_⟩, hsome, hloop, hproc p⟩
  · obtain ⟨rfl, rfl, ready, hready⟩ := h.alone q b pc ((hproc q b pc).1 hq)
    refine ⟨rfl, rfl, ready, ?_⟩
    rw [hloop]
    unfold wakeStep
    split
    · split_ifs
      · rw [wakeAll, hready]
        rfl
      · exact hready
    · exact hready
  · rw [hloop] at hp
    obtain ⟨l₀, hl₀, hwoken⟩ := wakeStep_some hp
    have hreading : l₀ = .reading i ready := by
      rcases hwoken with rfl | hwoken
      · rfl
      · cases l₀ <;> simp only [Loop.wake] at hwoken <;> cases hwoken
        rfl
    obtain ⟨hi, ⟨hlock, hne⟩ | ⟨value, hformat⟩⟩ := h.found i ready (hreading ▸ hl₀)
    · exact ⟨hi, .inl ⟨(hproc p _ _).2 hlock, hsome hne⟩⟩
    · exact ⟨hi, .inr ⟨value, (hproc p _ _).2 hformat⟩⟩
  · rw [hloop] at hp
    obtain ⟨l₀, hl₀, rfl | rfl⟩ := wakeStep_some hp
    · exact (h.keeps _ hl₀).mono hsome
    · exact ((h.keeps _ hl₀).mono hsome).wake
  · rw [printedAt_append, hprinted, List.append_nil, driverLog_append, Timestamps.removed_append,
      hremoved, List.append_nil, htaken]
    exact h.printed

theorem cstring_kBuffer (abi : Abi) (value : ℕ) :
    cstring (kBuffer abi value ++ [0]) = kBuffer abi value := by
  rw [Timestamps.kBuffer_eq]
  exact cstring_append_nul ((nulFree_decimal _).append (by decide)) []

/-- A step of the read: it takes the first time out, then prints its text. -/
theorem readKernel_cases {ready : List ℕ} (h : Reads abi p d s log)
    (hp : s.loop p = some (.reading d ready))
    (hstep : step abi argv s (.kernel (.run p)) = some (s', out)) :
    (s.driver.proc p = .read lgBuffer .lock ∧ s.driver.data.arrayEnd ≠ 0 ∧ s'.loop = s.loop ∧
      s'.driver = { s.driver with data := s.driver.data.removeFirst }.setProc p
        (.read lgBuffer (.format (s.driver.data.array 0))) ∧
      out = [.kernel (.removed p (s.driver.data.array 0))]) ∨
    ∃ value, s.driver.proc p = .read lgBuffer (.format value) ∧
      s' = { s with driver := s.driver.setProc p .outside }.setLoop p (.service (d + 1) ready) ∧
      out = [.kernel (.returned p ((kBuffer abi value).length + 1) (kBuffer abi value ++ [0])),
        .printed p d (kBuffer abi value)] := by
  obtain ⟨dr, dout, -, hdriver, hresume, hd, -⟩ := kernel_cases hstep
  rcases (h.found d ready hp).2 with ⟨hlock, hsome⟩ | ⟨value, hformat⟩
  · have hwake : wakeStep s (.run p) = s.loop := if_neg (by simp [hlock])
    obtain ⟨rfl, rfl⟩ := lock_step hlock hsome hdriver
    rw [hwake] at hresume
    cases hresume
    exact .inl ⟨hlock, hsome, rfl, rfl, rfl⟩
  · have hwake : wakeStep s (.run p) = s.loop := if_neg (by simp [hformat])
    obtain ⟨rfl, rfl⟩ := format_step hformat hdriver
    rw [hwake] at hresume
    simp only [resume, hp, report] at hresume
    rw [if_pos (by omega), cstring_kBuffer] at hresume
    cases hresume
    exact .inr ⟨value, hformat, rfl, rfl⟩

theorem reads_readKernel {ready : List ℕ} (h : Reads abi p d s log)
    (hp : s.loop p = some (.reading d ready))
    (hstep : step abi argv s (.kernel (.run p)) = some (s', out)) :
    Reads abi p d s' (log ++ out) := by
  have hprinted := h.printed
  rcases readKernel_cases h hp hstep with ⟨hlock, hsome, hloop, hdriver, rfl⟩ | ⟨value, hformat, rfl, rfl⟩
  · have hself : s'.driver.proc p = .read lgBuffer (.format (s.driver.data.array 0)) := by
      rw [hdriver, Timestamps.setProc_self]
    refine ⟨fun q b pc hq => ?_, fun i ready' hi => ?_, fun l hl => ?_, ?_⟩
    · by_cases hqp : q = p
      · subst hqp
        rw [hself] at hq
        cases hq
        exact ⟨rfl, rfl, ready, hloop ▸ hp⟩
      · rw [hdriver, Timestamps.setProc_of_ne hqp] at hq
        exact absurd (h.alone q b pc hq).1 hqp
    · rw [hloop, hp] at hi
      cases hi
      exact ⟨rfl, .inr ⟨_, hself⟩⟩
    · rw [hloop, hp] at hl
      cases hl
      trivial
    · rw [hlock] at hprinted
      rw [hself, printedAt_append, driverLog_append, Timestamps.removed_append, List.map_append,
        ← hprinted]
      simp [printedAt, Timestamps.Proc.taken, driverLog, Timestamps.removed]
  · refine ⟨fun q b pc hq => ?_, fun i ready' hi => ?_, fun l hl => ?_, ?_⟩
    · have hq' : (s.driver.setProc p .outside).proc q = .read b pc := hq
      by_cases hqp : q = p
      · subst hqp
        rw [Timestamps.setProc_self] at hq'
        cases hq'
      · rw [Timestamps.setProc_of_ne hqp] at hq'
        exact absurd (h.alone q b pc hq').1 hqp
    · rw [setLoop_self] at hi
      cases hi
    · rw [setLoop_self] at hl
      cases hl
      exact fun hi => absurd hi (by omega)
    · rw [hformat] at hprinted
      change printedAt p d _ ++ ((s.driver.setProc p .outside).proc p).taken.toList.map
        (kBuffer abi) = _
      rw [Timestamps.setProc_self, printedAt_append, driverLog_append, Timestamps.removed_append,
        List.map_append, ← hprinted]
      simp [printedAt, Timestamps.Proc.taken, driverLog, Timestamps.removed]

/-! ### Every run -/

theorem reads_step {a : Act Pid} (h : Reads abi p d s log) (hsole : Sole argv p d)
    (hseated : Seated s) (hnonneg : 0 ≤ s.driver.data.arrayEnd) (hread : NoRead a)
    (hstep : step abi argv s a = some (s', out)) : Reads abi p d s' (log ++ out) := by
  cases a with
  | kernel a =>
    by_cases hreads : ∃ q b pc, a = .run q ∧ s.driver.proc q = .read b pc
    · obtain ⟨q, b, pc, rfl, hq⟩ := hreads
      obtain ⟨rfl, rfl, ready, hready⟩ := h.alone q b pc hq
      exact reads_readKernel h hready hstep
    · exact (reads_otherKernel h hnonneg (fun q b ha => hread q b (ha ▸ rfl))
        (fun q b pc ha hq => hreads ⟨q, b, pc, ha, hq⟩) hstep).1
  | start q =>
    simp only [step] at hstep
    split_ifs at hstep with hq
    cases hstep
    refine h.setLoop (fun hqp => ⟨fun hmem => absurd hmem List.not_mem_nil, rfl, ?_⟩) rfl rfl
    intro l' hl'
    rw [← hqp, hq.1] at hl'
    cases hl'
  | run q r =>
    simp only [step] at hstep
    split at hstep
    · rename_i l hl
      exact reads_loopStep h hsole hseated hl hstep
    · cases hstep
  | timeout q =>
    simp only [step] at hstep
    split at hstep
    · rename_i t hq
      cases hstep
      refine h.setLoop (fun hqp => ⟨fun hmem => absurd hmem List.not_mem_nil, rfl, ?_⟩) rfl rfl
      intro l' hl'
      rw [← hqp, hq] at hl'
      cases hl'
      rfl
    · cases hstep
  | signal q =>
    simp only [step] at hstep
    split at hstep
    · rename_i w hq
      cases hstep
      refine h.setLoop (fun hqp => ⟨trivial, rfl, ?_⟩) rfl rfl
      intro l' hl'
      rw [← hqp, hq] at hl'
      cases hl'
      rfl
    · cases hstep

/-- What is known of every state that a run reaches. -/
structure Running (abi : Abi) (argv : Pid → List File) (p : Pid) (d : ℕ) (s : State Pid)
    (log : List (Event Pid)) : Prop where
  seated : Seated s
  waking : Waking argv s log
  reads : Reads abi p d s log

theorem running_step {a : Act Pid} (h : Running abi argv p d s log) (hsole : Sole argv p d)
    (hread : NoRead a) (hstep : step abi argv s a = some (s', out)) :
    Running abi argv p d s' (log ++ out) where
  seated := seated_step h.seated hstep
  waking := waking_step h.waking h.seated hstep
  reads := reads_step h.reads hsole h.seated h.waking.driver.queued.nonneg hread hstep

variable {array : Memory ℕ} {jiffies : ℕ} {acts : List (Act Pid)}

theorem running_of_run (hsole : Sole argv p d) (hread : ∀ a ∈ acts, NoRead a)
    (hrun : (system abi argv).exec (init Pid array jiffies) acts = some (s, log)) :
    Running abi argv p d s log :=
  System.exec_induction_along (P := fun _ a => NoRead a) (I := Running abi argv p d)
    (fun _ _ _ _ _ h hread hstep => running_step h hsole hread hstep)
    ⟨seated_init array jiffies, waking_init array jiffies, reads_init array jiffies⟩
    (System.along_of_forall hread _) hrun

/-- **`test-select` prints every time once, in order.** In every run in which one process only reads
the device, and has it once among its files: the texts it has printed, followed by the one it has in its
buffer and those of the times that are pending, are the texts of the times recorded, in order; and
when it is in a read, this has taken out a time or there is one to be taken, so that it does not sleep. -/
theorem test_select_prints (hsole : Sole argv p d) (hread : ∀ a ∈ acts, NoRead a)
    (hrun : (system abi argv).exec (init Pid array jiffies) acts = some (s, log)) :
    printedAt p d log ++ ((s.driver.proc p).taken.toList ++ s.driver.data.pending).map (kBuffer abi) =
        (Timestamps.recorded (driverLog log)).map (kBuffer abi) ∧
      ∀ q b pc, s.driver.proc q = .read b pc → q = p ∧
        ((pc = .lock ∧ 0 < s.driver.data.arrayEnd) ∨ ∃ value, pc = .format value) := by
  obtain ⟨-, hwaking, hreads⟩ := running_of_run hsole hread hrun
  refine ⟨?_, fun q b pc hq => ?_⟩
  · rw [List.map_append, ← List.append_assoc, hreads.printed, ← List.map_append,
      hwaking.driver.queued.removed_append]
  · obtain ⟨rfl, rfl, ready, hready⟩ := hreads.alone q b pc hq
    refine ⟨rfl, ?_⟩
    rcases (hreads.found d ready hready).2 with ⟨hlock, hsome⟩ | ⟨value, hformat⟩
    · rw [hq] at hlock
      cases hlock
      have hnonneg := hwaking.driver.queued.nonneg
      exact .inl ⟨rfl, by omega⟩
    · rw [hq] at hformat
      cases hformat
      exact .inr ⟨value, rfl⟩

/-! ### An example -/

/-- One process has the device for its only file, the other handles the interrupts. -/
def onlyDevice : Bool → List File
  | true => [.device]
  | false => []

theorem sole_onlyDevice : Sole onlyDevice true 0 where
  device := rfl
  once := by
    intro i hi
    obtain ⟨hlt, -⟩ := List.getElem?_eq_some_iff.1 hi
    exact Nat.lt_one_iff.1 hlt
  others := by decide

/-- An interrupt, and the process calls `select`. -/
def recordOne : List (Act Bool) :=
  [.kernel (.interrupt false), .kernel (.run false), .kernel (.run false), .start true]

/-- `select` returns, the process prints the time and sleeps in `select` again. -/
def printOne : List (Act Bool) :=
  List.replicate 4 (.run true ⟨false, none⟩) ++ List.replicate 2 (.kernel (.run true)) ++
    List.replicate 5 (.run true ⟨false, none⟩)

theorem noRead_printOne : ∀ a ∈ recordOne ++ printOne, NoRead a := by
  intro a ha q b heq
  subst heq
  simp [recordOne, printOne] at ha

theorem test_select_prints_one :
    ∃ (s : State Bool) (log : List (Event Bool)),
      (system .lp64 onlyDevice).exec (init Bool (fun _ => 0) 7) (recordOne ++ printOne) =
        some (s, log) ∧ printedAt true 0 log = [[55, 10]] ∧
      printedAt true 0 log ++ ((s.driver.proc true).taken.toList ++ s.driver.data.pending).map
        (kBuffer .lp64) = (Timestamps.recorded (driverLog log)).map (kBuffer .lp64) := by
  obtain ⟨⟨s, log⟩, hrun, hval⟩ := Option.map_eq_some_iff.1
    (show ((system .lp64 onlyDevice).exec (init Bool (fun _ => 0) 7)
        (recordOne ++ printOne)).map (fun r => printedAt true 0 r.2) = some [[55, 10]] by
      decide +kernel)
  exact ⟨s, log, hrun, hval, (test_select_prints sole_onlyDevice noRead_printOne hrun).1⟩

end IldDrivers.SelectLoop
