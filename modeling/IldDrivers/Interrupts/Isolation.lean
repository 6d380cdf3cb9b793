import IldDrivers.Interrupts.Resources

/-!
# What is read from a file of `example-V-10`

* `Comes`: a time has been recorded by an interrupt that was taken after the `open` of the file;
* `Sourced`: so are the times in the array of an open file, and those that its reads have taken out;
* `session_isolation`: what is read, what a failed open leaves, and who has the resources.
-/

namespace IldDrivers.Timestamps.Sessions

variable {Pid Data : Type*}

/-- After the `open` of the file has succeeded with the structure `d`, the process `p` has taken an
interrupt with it, and no other since. -/
def Interrupted (f : ℕ) (p : Pid) (d : Data) (log : List (Event Pid Data)) : Prop :=
  ∃ l₀ l₁ l₂, log = l₀ ++ .opened f d :: l₁ ++ .taken p d :: l₂ ∧ ∀ d', .taken p d' ∉ l₂

/-- The time has been recorded by an interrupt that was taken after the `open` of the file. -/
def Comes (f : ℕ) (value : ℕ) (log : List (Event Pid Data)) : Prop :=
  ∃ p d before after, log = before ++ .recorded p d value :: after ∧ Interrupted f p d before

/-- What the structures and the reads have to do with the history. -/
structure Sourced (s : State Pid Data) (log : List (Event Pid Data)) : Prop where
  opened : ∀ f d, s.stage f = .opened d → .opened f d ∈ log
  emptied : ∀ f d block, (s.stage f).Emptied d → s.heap d = some block → block.arrayEnd = 0
  array : ∀ f d block, s.stage f = .opened d → s.heap d = some block →
    0 ≤ block.arrayEnd ∧ ∀ value ∈ block.pending, Comes f value log
  handled : ∀ f d p, s.stage f = .opened d → s.proc p = .handlerLock d → Interrupted f p d log
  reads : ∀ p f d a value, s.proc p = .read f d a (.format value) → Comes f value log

section Sourced

variable {s s' : State Pid Data} {f : ℕ} {log out : List (Event Pid Data)} {p : Pid} {d : Data}
  {value : ℕ}

theorem Interrupted.append (h : Interrupted f p d log) (hout : ∀ d', Event.taken p d' ∉ out) :
    Interrupted f p d (log ++ out) := by
  obtain ⟨l₀, l₁, l₂, rfl, hlast⟩ := h
  refine ⟨l₀, l₁, l₂ ++ out, by simp, fun d' hd' => ?_⟩
  rcases List.mem_append.1 hd' with hold | hnew
  · exact hlast d' hold
  · exact hout d' hnew

theorem interrupted_taken (h : .opened f d ∈ log) : Interrupted f p d (log ++ [.taken p d]) := by
  obtain ⟨l₀, l₁, rfl⟩ := List.append_of_mem h
  exact ⟨l₀, l₁, [], rfl, by simp⟩

theorem Comes.append (h : Comes f value log) (out : List (Event Pid Data)) :
    Comes f value (log ++ out) := by
  obtain ⟨p, d, before, after, rfl, hinterrupted⟩ := h
  exact ⟨p, d, before, after ++ out, by simp, hinterrupted⟩

theorem Interrupted.recorded (h : Interrupted f p d log) (value : ℕ) :
    Comes f value (log ++ [.recorded p d value]) := ⟨p, d, log, [], rfl, h⟩

theorem sourced_init (jiffies : ℕ) : Sourced (init Pid Data jiffies) [] where
  opened f d h := by cases h
  emptied f d block h := h.elim
  array f d block h := by cases h
  handled f d p h := by cases h
  reads p f d a value h := by cases h

/-- A structure is that of one file. -/
theorem Accounted.same_file (ha : Accounted s) {f g : ℕ} (hf : (s.stage f).data = some d)
    (hg : (s.stage g).data = some d) : f = g :=
  ha.shares.unique (.block d) f g hf hg

theorem Sourced.fileStep (hs : Sourced s log) (ha : Accounted s) (hb : Busy s)
    (hfile : FileStep s s' f out) : Sourced s' (log ++ out) := by
  have ha' := ha.fileStep hfile
  -- the structures of the other files
  have hheap : ∀ g d, g ≠ f → (s.stage g).data = some d → s'.heap d = s.heap d := by
    intro g d hg hd
    refine hfile.heap d (fun h => hg (ha'.same_file ?_ h)) fun h => hg (ha.same_file hd h)
    rw [hfile.others g hg]
    exact hd
  refine ⟨fun g d h => ?_, fun g d block h hblock => ?_, fun g d block h hblock => ?_,
    fun g d p h hp => ?_, fun p g d a value hp => ?_⟩
  · by_cases hg : g = f
    · subst hg
      rw [(hfile.opened d h).1]
      exact List.mem_append_right _ (List.mem_singleton_self _)
    · rw [hfile.others g hg] at h
      exact List.mem_append_left _ (hs.opened g d h)
  · by_cases hg : g = f
    · subst hg
      rcases hfile.emptied d h with ⟨block', hblock', hzero⟩ | ⟨hold, hsame⟩
      · rw [hblock] at hblock'
        cases hblock'
        exact hzero
      · exact hs.emptied g d block hold (hsame ▸ hblock)
    · rw [hfile.others g hg] at h
      exact hs.emptied g d block h (hheap g d hg h.data ▸ hblock)
  · by_cases hg : g = f
    · subst hg
      obtain ⟨-, hemptied, hsame⟩ := hfile.opened d h
      have hzero := hs.emptied g d block hemptied (hsame ▸ hblock)
      refine ⟨hzero.ge, fun value hvalue => ?_⟩
      rw [ExampleData.pending, hzero] at hvalue
      exact absurd hvalue List.not_mem_nil
    · rw [hfile.others g hg] at h
      have hdata : (s.stage g).data = some d := by
        rw [h]
        rfl
      obtain ⟨hnonneg, hpending⟩ := hs.array g d block h (hheap g d hg hdata ▸ hblock)
      exact ⟨hnonneg, fun value hvalue => (hpending value hvalue).append out⟩
  · rw [hfile.proc] at hp
    by_cases hg : g = f
    · subst hg
      -- no handler of a file that has just been opened is running
      obtain ⟨-, hemptied, -⟩ := hfile.opened d h
      obtain ⟨-, k, hruns⟩ := hb.handling p d (by rw [hp]; rfl)
      have hsame := ha.same_file hruns.data hemptied.data
      subst hsame
      exact absurd hruns hemptied.not_runs
    · rw [hfile.others g hg] at h
      refine (hs.handled g d p h hp).append fun d' hd' => ?_
      rcases hfile.event with rfl | ⟨e, rfl, he⟩
      · exact List.not_mem_nil hd'
      · rw [← List.mem_singleton.1 hd'] at he
        exact he
  · rw [hfile.proc] at hp
    exact (hs.reads p g d a value hp).append out

/-- A process moves; the others stay where they are. -/
theorem Sourced.setProc [DecidableEq Pid] (hs : Sourced s log) {t : State Pid Data} {x : Proc Data}
    (hstage : t.stage = s.stage)
    (hlock : ∀ q d, q ≠ p → t.proc q = .handlerLock d → s.proc q = .handlerLock d)
    (hformat : ∀ q f d a value, q ≠ p → t.proc q = .read f d a (.format value) →
      s.proc q = .read f d a (.format value))
    (hemptied : ∀ f d block, (s.stage f).Emptied d → t.heap d = some block → block.arrayEnd = 0)
    (harray : ∀ f d block, s.stage f = .opened d → t.heap d = some block →
      0 ≤ block.arrayEnd ∧ ∀ value ∈ block.pending, Comes f value (log ++ out))
    (hout : ∀ q d, q ≠ p → .taken q d ∉ out)
    (hx : ∀ f d, s.stage f = .opened d → x = .handlerLock d → Interrupted f p d (log ++ out))
    (hx' : ∀ f d a value, x = .read f d a (.format value) → Comes f value (log ++ out)) :
    Sourced (t.setProc p x) (log ++ out) := by
  refine ⟨fun f d h => ?_, fun f d block h => ?_, fun f d block h => ?_, fun f d q h hq => ?_,
    fun q f d a value hq => ?_⟩
  · change t.stage f = _ at h
    rw [hstage] at h
    exact List.mem_append_left _ (hs.opened f d h)
  · change (t.stage f).Emptied d at h
    rw [hstage] at h
    exact hemptied f d block h
  · change t.stage f = _ at h
    rw [hstage] at h
    exact harray f d block h
  · change t.stage f = _ at h
    rw [hstage] at h
    by_cases hqp : q = p
    · subst hqp
      simp only [State.setProc, Function.update_self] at hq
      exact hx f d h hq
    · simp only [State.setProc, Function.update_of_ne hqp] at hq
      exact (hs.handled f d q h (hlock q d hqp hq)).append fun d' => hout q d' hqp
  · by_cases hqp : q = p
    · subst hqp
      simp only [State.setProc, Function.update_self] at hq
      exact hx' f d a value hq
    · simp only [State.setProc, Function.update_of_ne hqp] at hq
      exact (hs.reads q f d a value (hformat q f d a value hqp hq)).append out

/-- The same where nothing is stored in a structure, and no interrupt is taken. -/
theorem Sourced.move [DecidableEq Pid] (hs : Sourced s log) {t : State Pid Data} {x : Proc Data}
    (hstage : t.stage = s.stage) (hheap : t.heap = s.heap)
    (hlock : ∀ q d, q ≠ p → t.proc q = .handlerLock d → s.proc q = .handlerLock d)
    (hformat : ∀ q f d a value, q ≠ p → t.proc q = .read f d a (.format value) →
      s.proc q = .read f d a (.format value))
    (hout : ∀ q d, .taken q d ∉ out) (hx : ∀ d, x ≠ .handlerLock d)
    (hx' : ∀ f d a value, x ≠ .read f d a (.format value)) :
    Sourced (t.setProc p x) (log ++ out) := by
  refine hs.setProc hstage hlock hformat (fun f d block h hblock => ?_) (fun f d block h hblock => ?_)
    (fun q d _ => hout q d) (fun f d _ h => absurd h (hx d)) fun f d a value h =>
      absurd h (hx' f d a value)
  · exact hs.emptied f d block h (hheap ▸ hblock)
  · obtain ⟨hnonneg, hpending⟩ := hs.array f d block h (hheap ▸ hblock)
    exact ⟨hnonneg, fun value hvalue => (hpending value hvalue).append out⟩

section Arrays

variable [DecidableEq Pid] [DecidableEq Data]

/-- The handler stores a time in the structure of an open file, or of one that is being closed. -/
theorem Sourced.record (hs : Sourced s log) (ha : Accounted s) (hb : Busy s) {block : ExampleData}
    (hp : s.proc p = .handlerLock d) (hblock : s.heap d = some block) :
    Sourced ((s.setHeap d (some (block.record s.jiffies))).setProc p (.handlerWake d))
      (log ++ [.recorded p d s.jiffies]) := by
  obtain ⟨-, g, hruns⟩ := hb.handling p d (by rw [hp]; rfl)
  refine hs.setProc rfl (fun _ _ _ => id) (fun _ _ _ _ _ _ => id) (fun f d' block' h hblock' => ?_)
    (fun f d' block' h hblock' => ?_) (by simp) nofun nofun
  · by_cases hd : d' = d
    · subst hd
      have hsame := ha.same_file hruns.data h.data
      subst hsame
      exact absurd hruns h.not_runs
    · simp only [State.setHeap, Function.update_of_ne hd] at hblock'
      exact hs.emptied f d' block' h hblock'
  · by_cases hd : d' = d
    · subst hd
      simp only [State.setHeap, Function.update_self, Option.some.injEq] at hblock'
      subst hblock'
      obtain ⟨hnonneg, hpending⟩ := hs.array f d' block h hblock
      refine ⟨by simp only [ExampleData.record]; omega, fun value hvalue => ?_⟩
      rw [ExampleData.pending_record hnonneg] at hvalue
      rcases List.mem_append.1 hvalue with hold | hnew
      · exact (hpending value hold).append _
      · rw [List.mem_singleton.1 hnew]
        exact (hs.handled f d' p h hp).recorded s.jiffies
    · simp only [State.setHeap, Function.update_of_ne hd] at hblock'
      obtain ⟨hnonneg, hpending⟩ := hs.array f d' block' h hblock'
      exact ⟨hnonneg, fun value hvalue => (hpending value hvalue).append _⟩

/-- A read takes the first time out of the structure of its file. -/
theorem Sourced.remove (hs : Sourced s log) (ha : Accounted s) (hb : Busy s) {block : ExampleData}
    {a : ReadArgs} (hp : s.proc p = .read f d a .lock) (hblock : s.heap d = some block)
    (hsome : block.arrayEnd ≠ 0) :
    Sourced ((s.setHeap d (some block.removeFirst)).setProc p (.read f d a (.format (block.array 0))))
      (log ++ [.removed p f (block.array 0)]) := by
  obtain ⟨hopened, -⟩ := hb.reading p f d (by rw [hp]; rfl)
  have hdata : (s.stage f).data = some d := by
    rw [hopened]
    rfl
  obtain ⟨hnonneg, hpending⟩ := hs.array f d block hopened hblock
  have hfirst := ExampleData.pending_removeFirst (d := block) (by omega)
  refine hs.setProc rfl (fun _ _ _ => id) (fun _ _ _ _ _ _ => id) (fun g d' block' h hblock' => ?_)
    (fun g d' block' h hblock' => ?_) (by simp) nofun fun g d' a' value h => ?_
  · by_cases hd : d' = d
    · subst hd
      have hsame := ha.same_file hdata h.data
      subst hsame
      rw [hopened] at h
      exact h.elim
    · simp only [State.setHeap, Function.update_of_ne hd] at hblock'
      exact hs.emptied g d' block' h hblock'
  · by_cases hd : d' = d
    · subst hd
      simp only [State.setHeap, Function.update_self, Option.some.injEq] at hblock'
      subst hblock'
      have hsame : g = f := ha.same_file (by rw [h]; rfl) hdata
      subst hsame
      refine ⟨?_, fun value hvalue => (hpending value ?_).append _⟩
      · rw [ExampleData.arrayEnd_removeFirst]
        omega
      · rw [hfirst]
        exact List.mem_cons_of_mem _ hvalue
    · simp only [State.setHeap, Function.update_of_ne hd] at hblock'
      obtain ⟨hnonneg', hpending'⟩ := hs.array g d' block' h hblock'
      exact ⟨hnonneg', fun value hvalue => (hpending' value hvalue).append _⟩
  · cases h
    refine (hpending (block.array 0) ?_).append _
    rw [hfirst]
    exact List.mem_cons_self

theorem Sourced.procStep {abi : Abi} (hs : Sourced s log) (ha : Accounted s) (hb : Busy s)
    (hproc : ProcStep abi s s' out) : Sourced s' (log ++ out) := by
  cases hproc with
  | tick jiffies =>
    rw [List.append_nil]
    exact ⟨hs.opened, hs.emptied, hs.array, hs.handled, hs.reads⟩
  | @interrupt p d hp hd =>
    refine hs.setProc rfl (fun _ _ _ => id) (fun _ _ _ _ _ _ => id)
      (fun f d block h hblock => hs.emptied f d block h hblock) (fun f d block h hblock => ?_) ?_
      (fun f d' h hlock => ?_) nofun
    · obtain ⟨hnonneg, hpending⟩ := hs.array f d block h hblock
      exact ⟨hnonneg, fun value hvalue => (hpending value hvalue).append _⟩
    · intro q d' hq hmem
      exact hq (Event.taken.inj (List.mem_singleton.1 hmem)).1
    · cases hlock
      exact interrupted_taken (hs.opened f d h)
  | record hp hblock hroom => exact hs.record ha hb hp hblock
  | drop hp => exact hs.move rfl rfl (fun _ _ _ => id) (fun _ _ _ _ _ _ => id) (by simp) nofun nofun
  | @wake p d hp =>
    refine hs.move rfl rfl (fun q d' _ h => ?_) (fun q f d' a value _ h => ?_) (by simp) nofun nofun
    · simp only [wakeUp] at h
      split at h
      · cases h
      · exact h
    · simp only [wakeUp] at h
      split at h
      · cases h
      · exact h
  | start a hp hf =>
    exact hs.move rfl rfl (fun _ _ _ => id) (fun _ _ _ _ _ _ => id) (by simp) nofun nofun
  | go hp hpc' =>
    refine hs.move rfl rfl (fun _ _ _ => id) (fun _ _ _ _ _ _ => id) (by simp) nofun
      fun f d a value h => ?_
    cases h
    exact hpc' value rfl
  | remove hp hblock hsome => exact hs.remove ha hb hp hblock hsome
  | leave hp hr =>
    exact hs.move rfl rfl (fun _ _ _ => id) (fun _ _ _ _ _ _ => id) (by simp [Sessions.leave])
      nofun nofun

end Arrays

end Sourced

/-! ### Every run -/

/-- What is returned is the text of a time that comes from after the `open`. -/
def Returns (abi : Abi) (before : List (Event Pid Data)) : Event Pid Data → Prop
  | .returned _ f ret user =>
      0 < ret → ∃ value, user = kBuffer abi value ++ [0] ∧ Comes f value before
  | _ => True

/-- The invariant of a run. -/
structure Inv (abi : Abi) (s : State Pid Data) (log : List (Event Pid Data)) : Prop where
  accounted : Accounted s
  busy : Busy s
  sourced : Sourced s log
  returns : History.EachAfter (Returns abi) log

theorem inv_init (abi : Abi) (jiffies : ℕ) : Inv abi (init Pid Data jiffies) [] :=
  ⟨accounted_init jiffies, busy_init jiffies, sourced_init jiffies, History.eachAfter_nil⟩

/-- With the same shares, the same resources are in use. -/
theorem Accounted.same {s s' : State Pid Data} (ha : Accounted s) (ha' : Accounted s')
    (hshare : ∀ g, (s'.stage g).share = (s.stage g).share) :
    s'.gpio = s.gpio ∧ s'.handlers.Perm s.handlers ∧
      ∀ d, (s'.heap d).isSome = (s.heap d).isSome := by
  have htaken : s'.taken = s.taken := ha.shares.taken_eq ha'.shares hshare
  refine ⟨?_, ?_, fun d => ?_⟩
  · exact Bool.eq_iff_iff.2 (by rw [← gpio_mem_taken, htaken, gpio_mem_taken])
  · rw [List.perm_ext_iff_of_nodup ha'.nodup ha.nodup]
    intro d
    rw [← handler_mem_taken, htaken, handler_mem_taken]
  · exact Bool.eq_iff_iff.2 (by rw [← block_mem_taken, htaken, block_mem_taken])

/-- A file whose `open` has not been called, or has failed, has nothing. -/
theorem share_eq_empty {x : Stage Data} (h : x = .unopened ∨ ∃ err, x = .failed err) :
    x.share = ∅ := by
  rcases h with rfl | ⟨err, rfl⟩
  · ext r
    cases r <;> simp [Stage.data, Stage.gpio]
  · ext r
    cases r <;> simp [Stage.data, Stage.gpio]

/-- No `open` and no `release` of the file is in progress. -/
def Stage.Settled : Stage Data → Prop
  | .opening _ | .releasing _ _ => False
  | _ => True

/-- A file in which neither is in progress has the GPIO when it is open. -/
theorem Stage.Settled.gpio_iff {x : Stage Data} (h : x.Settled) : x.gpio ↔ ∃ d, x = .opened d := by
  cases x with
  | opening | releasing => exact h.elim
  | opened d => exact iff_of_true trivial ⟨d, rfl⟩
  | unopened | failed | closed => exact iff_of_false id nofun

section Runs

variable [DecidableEq Pid] [DecidableEq Data] {abi : Abi} {s s' : State Pid Data}
  {log out : List (Event Pid Data)}

/-- A step has one event at most; if it is that of a read that returns, its time comes from after the
`open`. -/
theorem returns_of_step {act : Act Pid Data} (hinv : Inv abi s log)
    (hstep : step abi s act = some (s', out)) :
    out = [] ∨ ∃ e, out = [e] ∧ Returns abi log e := by
  rcases stepped hinv.accounted hstep with ⟨f, hfile⟩ | hproc
  · rcases hfile.event with hnone | ⟨e, heq, he⟩
    · exact .inl hnone
    · refine .inr ⟨e, heq, ?_⟩
      cases e with
      | returned => exact he.elim
      | _ => trivial
  · cases hproc with
    | tick | wake | start | go => exact .inl rfl
    | interrupt | record | drop | remove => exact .inr ⟨_, rfl, trivial⟩
    | leave hp hr =>
      refine .inr ⟨_, rfl, fun hpos => ?_⟩
      obtain ⟨value, rfl, htext⟩ := hr hpos
      exact ⟨value, htext, hinv.sourced.reads _ _ _ _ value hp⟩

theorem inv_step {act : Act Pid Data} (hinv : Inv abi s log)
    (hstep : step abi s act = some (s', out)) : Inv abi s' (log ++ out) := by
  have hreturns : History.EachAfter (Returns abi) (log ++ out) := by
    rcases returns_of_step hinv hstep with rfl | ⟨e, rfl, he⟩
    · rw [List.append_nil]
      exact hinv.returns
    · exact History.eachAfter_snoc.2 ⟨hinv.returns, he⟩
  rcases stepped hinv.accounted hstep with ⟨f, hfile⟩ | hproc
  · exact ⟨hinv.accounted.fileStep hfile, hinv.busy.fileStep hfile,
      hinv.sourced.fileStep hinv.accounted hinv.busy hfile, hreturns⟩
  · exact ⟨hinv.accounted.procStep hproc, hinv.busy.procStep hinv.accounted hproc,
      hinv.sourced.procStep hinv.accounted hinv.busy hproc, hreturns⟩

theorem inv_exec {jiffies : ℕ} {acts : List (Act Pid Data)}
    (hrun : (system abi Pid Data).exec (init Pid Data jiffies) acts = some (s, log)) : Inv abi s log :=
  System.exec_induction (I := Inv abi) (fun _ _ _ _ _ hinv hstep => inv_step hinv hstep) (inv_init abi jiffies) hrun

/-- The resources are accounted for in the states that follow as well. -/
theorem Accounted.exec {acts : List (Act Pid Data)} (ha : Accounted s)
    (hrun : (system abi Pid Data).exec s acts = some (s', log)) : Accounted s' := by
  refine System.exec_induction (I := fun s _ => Accounted s) (fun t _ act t' out ht hstep => ?_) ha hrun
  rcases stepped ht hstep with ⟨f, hfile⟩ | hproc
  · exact ht.fileStep hfile
  · exact ht.procStep hproc

/-- **The files are isolated from one another**, in every run. What a read returns is the text of a time
recorded by an interrupt that was taken after the `open` of its file had succeeded. When an `open` has
failed, and the other files have what they had before it was called, the GPIO, the handlers and the
structures that are allocated are what they were. The structure of a handler that is registered or
running is allocated. While no `open` and no `release` is in progress, the GPIO is held exactly when a
file is open. -/
theorem session_isolation {jiffies : ℕ} {acts : List (Act Pid Data)}
    (hrun : (system abi Pid Data).exec (init Pid Data jiffies) acts = some (s, log)) :
    (∀ before p f ret user after, log = before ++ .returned p f ret user :: after → 0 < ret →
      ∃ value, user = kBuffer abi value ++ [0] ∧ Comes f value before) ∧
    (∀ acts' s' log' f err, (system abi Pid Data).exec s acts' = some (s', log') →
      s.stage f = .unopened → s'.stage f = .failed err →
      (∀ g, g ≠ f → (s'.stage g).share = (s.stage g).share) →
      s'.gpio = s.gpio ∧ s'.handlers.Perm s.handlers ∧
        ∀ d, (s'.heap d).isSome = (s.heap d).isSome) ∧
    (∀ d, d ∈ s.handlers ∨ (∃ p, (s.proc p).handled = some d) → (s.heap d).isSome = true) ∧
    ((∀ f, (s.stage f).Settled) → (s.gpio = true ↔ ∃ f d, s.stage f = .opened d)) := by
  obtain ⟨ha, hb, -, hreturns⟩ := inv_exec hrun
  refine ⟨fun before p f ret user after hlog => hreturns before _ after hlog, ?_, ?_, ?_⟩
  · intro acts' s' log' f err hrun' hbefore hfailed hothers
    refine ha.same (ha.exec hrun') fun g => ?_
    by_cases hg : g = f
    · rw [hg, share_eq_empty (.inl hbefore), share_eq_empty (.inr ⟨err, hfailed⟩)]
    · exact hothers g hg
  · -- the file that has the handler has the structure
    rintro d (hd | ⟨p, hp⟩)
    · obtain ⟨f, hdata, -⟩ := (ha.shares.mem_taken (.handler d)).1 hd
      exact ha.shares.mem_of_mem (r := .block d) (i := f) hdata
    · obtain ⟨-, f, hruns⟩ := hb.handling p d hp
      exact ha.shares.mem_of_mem (r := .block d) (i := f) hruns.data
  · intro hsettled
    rw [← gpio_mem_taken, ha.shares.mem_taken]
    exact exists_congr fun f => (hsettled f).gpio_iff

end Runs

/-- A file is opened, takes an interrupt, and its time is read. -/
def firstOpen : List (Act ℕ ℕ) :=
  [.openFile, .kmalloc 0 (some (7, ⟨fun _ => 1, 3⟩)), .runFile 0, .call 0 0, .call 0 0, .call 0 0,
    .tick, .interrupt 0 7, .run 0, .run 0, .read 1 0 ⟨false, 16, 16⟩, .run 1, .run 1]

/-- The next open fails, as the GPIO is requested. -/
def secondOpen : List (Act ℕ ℕ) :=
  [.openFile, .kmalloc 1 (some (8, ⟨fun _ => 2, 5⟩)), .runFile 1, .call 1 (-16), .runFile 1]

/-- The values that were in the structure of the first are not returned, and the second leaves the
resources of the first as they are. -/
theorem session_isolation_second_open :
    ∃ s log s' log', (system .lp64 ℕ ℕ).exec (init ℕ ℕ 41) firstOpen = some (s, log) ∧
      (system .lp64 ℕ ℕ).exec s secondOpen = some (s', log') ∧
      (∃ value before, log = before ++ [.returned 1 0 4 [52, 50, 10, 0]] ∧
        [52, 50, 10, 0] = kBuffer .lp64 value ++ [0] ∧ Comes 0 value before) ∧
      s.stage 0 = .opened 7 ∧ s'.stage 1 = .failed (-16) ∧ s'.gpio = s.gpio ∧
      s'.handlers.Perm s.handlers ∧ (s'.heap 8).isSome = (s.heap 8).isSome := by
  obtain ⟨⟨s, log⟩, hrun, hrest⟩ := Option.bind_eq_some_iff.1
    (show (((system .lp64 ℕ ℕ).exec (init ℕ ℕ 41) firstOpen).bind fun r =>
        ((system .lp64 ℕ ℕ).exec r.1 secondOpen).map fun r' =>
          (r.2, [r.1.opens, r'.1.opens], [r.1.stage 0, r.1.stage 1, r'.1.stage 0, r'.1.stage 1])) =
      some ([.opened 0 7, .taken 0 7, .recorded 0 7 42, .removed 1 0 42,
          .returned 1 0 4 [52, 50, 10, 0]], [1, 2],
        [.opened 7, .unopened, .opened 7, .failed (-16)]) by decide +kernel)
  obtain ⟨⟨s', log'⟩, hrun', hval⟩ := Option.map_eq_some_iff.1 hrest
  simp only [Prod.mk.injEq, List.cons.injEq] at hval
  obtain ⟨hlog, ⟨hopens, hopens', -⟩, h0, h1, h0', h1', -⟩ := hval
  obtain ⟨hreturned, hfailed, -, -⟩ := session_isolation hrun
  obtain ⟨value, htext, hcomes⟩ := hreturned [.opened 0 7, .taken 0 7, .recorded 0 7 42,
    .removed 1 0 42] 1 0 4 [52, 50, 10, 0] [] hlog (by decide)
  have ha := (inv_exec hrun).accounted
  obtain ⟨hgpio, hhandlers, hheap⟩ := hfailed secondOpen s' log' 1 (-16) hrun' h1 h1' fun g hg => by
    by_cases hg0 : g = 0
    · rw [hg0, h0, h0']
    · rw [ha.unopened g (by omega), (ha.exec hrun').unopened g (by omega)]
  exact ⟨s, log, s', log', hrun, hrun', ⟨value, _, hlog, htext, hcomes⟩, h0, h1', hgpio, hhandlers,
    hheap 8⟩

end IldDrivers.Timestamps.Sessions
