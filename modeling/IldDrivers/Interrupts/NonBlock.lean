import IldDrivers.Interrupts.Select

/-!
# Reading without blocking (`cat-non-block`, `example-V-09`, `example-V-10`)

`cat-non-block` sets `O_NONBLOCK` and reads its file again and again. What it gets it writes to its
output; when there is nothing it writes the next of the four characters of its prompt and a backspace,
and sleeps a while. Any number of processes run it on one device, others read the same device in whatever manner,
and interrupts come in.

* `Cat`: where a process is in the loop of `nonblocking_cat`;
* `system`: the driver of `Timestamps` with these processes;
* `Going`: what is known of one of them after each step;
* `cat_non_block_goes_on`: it never sleeps in a read and never leaves the loop, it writes the times that
  it takes, in order, and its prompts turn.
-/

namespace IldDrivers.CatNonBlock

open Timestamps (ReadArgs ReadPc Proc Version kBuffer exampleArraySize)

/-! ### The program -/

/-- A bar, a slash, a dash and a backslash. -/
def prompt : List UInt8 := [124, 47, 45, 92]

/-- The next statement of `nonblocking_cat`. -/
inductive CatPc
  | read
  /-- In `read(fd, buffer, 4096)`. -/
  | reading
  /-- `write(STDOUT_FILENO, buffer, n)`. -/
  | copy (bytes : List UInt8)
  /-- `write(STDOUT_FILENO, &(prompt[i]), 1)`. -/
  | prompt
  /-- `write(STDOUT_FILENO, "\b", 1)`, and what is done with `i`. -/
  | backspace
  | usleep
  /-- The loop is over. -/
  | ended
  deriving DecidableEq

structure Cat where
  i : ℕ
  pc : CatPc
  deriving DecidableEq

structure State (Pid : Type*) where
  driver : Timestamps.State Pid
  /-- For a process that runs `cat-non-block`. -/
  cat : Pid → Cat

inductive Act (Pid : Type*)
  /-- An action of the driver's. -/
  | kernel (a : Timestamps.Act Pid)
  /-- The next statement of `nonblocking_cat`. -/
  | run (p : Pid)

inductive Event (Pid : Type*)
  | kernel (e : Timestamps.Event Pid)
  /-- What is written to `STDOUT_FILENO`. -/
  | text (p : Pid) (bytes : List UInt8)
  | prompt (p : Pid) (c : UInt8)
  | backspace (p : Pid)
  deriving DecidableEq

/-- The call `read(fd, buffer, 4096)`, after `fcntl`; the buffer is on the stack. -/
def catArgs : ReadArgs := ⟨true, 4096, 4096⟩

/-- The test of the loop, and `if (n > 0)`. -/
def Cat.returned (c : Cat) (n : ℤ) (buffer : List UInt8) : Cat :=
  ⟨c.i, if n > 0 then .copy (buffer.take n.toNat) else if n = 0 then .ended else .prompt⟩

variable {Pid : Type*} [DecidableEq Pid]

def State.setCat (s : State Pid) (p : Pid) (c : Cat) : State Pid :=
  { s with cat := Function.update s.cat p c }

/-- A process that runs `cat-non-block` makes no other call of the driver and handles no interrupt. -/
def allowed (cats : Pid → Bool) : Timestamps.Act Pid → Bool
  | .tick | .run _ => true
  | .interrupt p | .read p _ | .signal p => !cats p

/-- A read of `cat-non-block` that has returned. -/
def resume (cats : Pid → Bool) (s : State Pid) : List (Timestamps.Event Pid) → State Pid
  | [.returned p n buffer] => if cats p then s.setCat p ((s.cat p).returned n buffer) else s
  | _ => s

/-- The next statement of `nonblocking_cat`. -/
def catStep (s : State Pid) (p : Pid) (i : ℕ) : CatPc → Option (State Pid × List (Event Pid))
  | .read =>
      some ({ s with driver := s.driver.setProc p (.read catArgs .lock) }.setCat p ⟨i, .reading⟩, [])
  | .copy bytes => some (s.setCat p ⟨i, .read⟩, [.text p bytes])
  | .prompt => some (s.setCat p ⟨i, .backspace⟩, [.prompt p (prompt.getD i 0)])
  | .backspace =>
      let i := i + 1
      some (s.setCat p ⟨if i = 4 then 0 else i, .usleep⟩, [.backspace p])
  | .usleep => some (s.setCat p ⟨i, .read⟩, [])
  | .reading | .ended => none

def step (v : Version) (abi : Abi) (cats : Pid → Bool) (s : State Pid) :
    Act Pid → Option (State Pid × List (Event Pid))
  | .kernel a =>
      if allowed cats a then
        (Timestamps.step v abi s.driver a).map fun (d, out) =>
          (resume cats { s with driver := d } out, out.map .kernel)
      else none
  | .run p => if cats p then catStep s p (s.cat p).i (s.cat p).pc else none

def system (v : Version) (abi : Abi) (cats : Pid → Bool) :
    System (State Pid) (Act Pid) (Event Pid) := ⟨step v abi cats⟩

def init (Pid : Type*) (array : Memory ℕ) (jiffies : ℕ) : State Pid :=
  ⟨Timestamps.init Pid array jiffies, fun _ => ⟨0, .read⟩⟩

/-! ### What is expected -/

/-- The times that the process has taken out, in order. -/
def removedBy (p : Pid) (log : List (Event Pid)) : List ℕ :=
  log.filterMap fun e => match e with
    | .kernel (.removed q value) => if q = p then some value else none
    | _ => none

/-- The texts that it has written. -/
def texts (p : Pid) (log : List (Event Pid)) : List (List UInt8) :=
  log.filterMap fun e => match e with
    | .text q bytes => if q = p then some bytes else none
    | _ => none

/-- The prompts. -/
def prompts (p : Pid) (log : List (Event Pid)) : List UInt8 :=
  log.filterMap fun e => match e with
    | .prompt q c => if q = p then some c else none
    | _ => none

/-- What is written of a time: the buffer of the driver with its NUL. -/
def written (abi : Abi) (value : ℕ) : List UInt8 := kBuffer abi value ++ [0]

/-- What has been taken out and is not written yet. -/
def hand (abi : Abi) (x : Proc) (pc : CatPc) : List (List UInt8) :=
  match x, pc with
  | .read _ (.format value), _ => [written abi value]
  | _, .copy bytes => [bytes]
  | _, _ => []

/-- The first `n` prompts of a spinner. -/
def turns (n : ℕ) : List UInt8 := (List.range n).map fun k => prompt.getD (k % 4) 0

/-! ### The driver and one process -/

section Driver

open Timestamps (setProc_of_ne setProc_self)

variable {v : Version} {abi : Abi} {s s' : Timestamps.State Pid} {a : Timestamps.Act Pid}
  {out : List (Timestamps.Event Pid)} {p : Pid}

/-- The process whose call an event is about. -/
def reader : Timestamps.Event Pid → Option Pid
  | .recorded _ | .dropped _ => none
  | .removed q _ | .returned q _ _ => some q

/-- A step of a read of another process. -/
theorem readStep_others {q : Pid} {b : ReadArgs} {pc : ReadPc} (hq : p ≠ q)
    (hstep : Timestamps.readStep v abi s q b pc = some (s', out)) :
    s'.proc p = s.proc p ∧ ∀ e ∈ out, reader e ≠ some p := by
  have hne : some q ≠ some p := fun h => hq (Option.some.inj h).symm
  cases pc with
  | lock =>
    simp only [Timestamps.readStep] at hstep
    split_ifs at hstep <;> cases hstep <;> exact ⟨setProc_of_ne hq .., by simp [reader, Ne.symm hq]⟩
  | testNonblock =>
    simp only [Timestamps.readStep] at hstep
    split_ifs at hstep <;> cases hstep <;> exact ⟨setProc_of_ne hq .., by simp [reader, Ne.symm hq]⟩
  | wait w =>
    simp only [Timestamps.readStep] at hstep
    split at hstep <;> cases hstep <;> exact ⟨setProc_of_ne hq .., by simp⟩
  | format value =>
    cases hstep
    exact ⟨setProc_of_ne hq .., by simp [reader, Ne.symm hq]⟩

/-- A process that does not wait stays where it is while others make steps. -/
theorem step_others (howner : SelectLoop.owner a ≠ some p) (hwait : ∀ b w, s.proc p ≠ .read b (.wait w))
    (hstep : Timestamps.step v abi s a = some (s', out)) :
    s'.proc p = s.proc p ∧ ∀ e ∈ out, reader e ≠ some p := by
  have hwake : Timestamps.wakeUp s.proc p = s.proc p := by
    unfold Timestamps.wakeUp
    split
    · rename_i b w hp
      exact absurd hp (hwait b w)
    · rfl
  cases a with
  | tick =>
    cases hstep
    exact ⟨rfl, by simp⟩
  | interrupt q | read q b =>
    have hq : p ≠ q := fun h => howner (h ▸ rfl)
    simp only [Timestamps.step] at hstep
    split at hstep
    · cases hstep
      exact ⟨setProc_of_ne hq .., by simp⟩
    · cases hstep
  | run q =>
    have hq : p ≠ q := fun h => howner (h ▸ rfl)
    simp only [Timestamps.step] at hstep
    split at hstep
    · cases hstep
    · split_ifs at hstep <;> cases hstep <;> exact ⟨setProc_of_ne hq .., by simp [reader]⟩
    · cases hstep
      exact ⟨(setProc_of_ne hq ..).trans hwake, by simp⟩
    · exact readStep_others hq hstep
  | signal q =>
    have hq : p ≠ q := fun h => howner (h ▸ rfl)
    simp only [Timestamps.step] at hstep
    split at hstep
    · simp only [Timestamps.signalStep] at hstep
      split at hstep <;> cases hstep <;> exact ⟨setProc_of_ne hq .., by simp [reader, Ne.symm hq]⟩
    · cases hstep

/-- Where a read with `O_NONBLOCK` can be. -/
inductive InRead : Proc → Prop
  | lock : InRead (.read catArgs .lock)
  | testNonblock : InRead (.read catArgs .testNonblock)
  | format (value : ℕ) : InRead (.read catArgs (.format value))

/-- A step of such a read: a time is taken out or not, and the call returns `-EAGAIN` or the text. -/
inductive ReadCase (abi : Abi) (p : Pid) : Proc → Proc → List (Timestamps.Event Pid) → Prop
  | empty : ReadCase abi p (.read catArgs .lock) (.read catArgs .testNonblock) []
  | removed (value : ℕ) :
      ReadCase abi p (.read catArgs .lock) (.read catArgs (.format value)) [.removed p value]
  | again : ReadCase abi p (.read catArgs .testNonblock) .outside [.returned p (-eAgain) []]
  | delivered (value : ℕ) :
      ReadCase abi p (.read catArgs (.format value)) .outside
        [.returned p (written abi value).length (written abi value)]

/-- The buffer of the program has room for every text. -/
theorem deliver_catArgs (abi : Abi) (value : ℕ) :
    Timestamps.deliver abi catArgs value =
      (((written abi value).length : ℤ), written abi value) := by
  have hle : (kBuffer abi value).length ≤ 79 := List.length_take_le _ _
  have hroom : ¬ catArgs.length < (kBuffer abi value).length + 1 := by
    simp only [catArgs]
    omega
  have hlength : (kBuffer abi value ++ [0]).length = (kBuffer abi value).length + 1 := by simp
  have hall : copyToUser (kBuffer abi value ++ [0]) catArgs.copied = (kBuffer abi value ++ [0], 0) := by
    simp only [copyToUser, catArgs, Prod.mk.injEq]
    exact ⟨List.take_of_length_le (by omega), Nat.sub_eq_zero_of_le (by omega)⟩
  simp [Timestamps.deliver, hroom, hall, written]

theorem step_own (hv : v ≠ .v08) (hin : InRead (s.proc p))
    (hstep : Timestamps.step v abi s (.run p) = some (s', out)) :
    ReadCase abi p (s.proc p) (s'.proc p) out := by
  cases hp : s.proc p with
  | read b pc =>
    rw [hp] at hin
    simp only [Timestamps.step, hp] at hstep
    cases hin with
    | lock =>
      simp only [Timestamps.readStep] at hstep
      split_ifs at hstep
      · cases hstep
        rw [setProc_self]
        exact .empty
      · cases hstep
        rw [setProc_self]
        exact .removed _
    | testNonblock =>
      simp only [Timestamps.readStep, catArgs, ne_eq, hv, not_false_eq_true, and_self, if_true]
        at hstep
      cases hstep
      rw [setProc_self]
      exact .again
    | format value =>
      simp only [Timestamps.readStep] at hstep
      cases hstep
      rw [setProc_self, deliver_catArgs]
      exact .delivered value
  | outside | handlerLock | handlerWake =>
    rw [hp] at hin
    cases hin

end Driver

/-! ### The histories -/

section Histories

variable {p : Pid}

theorem removedBy_append (p : Pid) (log out : List (Event Pid)) :
    removedBy p (log ++ out) = removedBy p log ++ removedBy p out := List.filterMap_append

theorem texts_append (p : Pid) (log out : List (Event Pid)) :
    texts p (log ++ out) = texts p log ++ texts p out := List.filterMap_append

theorem prompts_append (p : Pid) (log out : List (Event Pid)) :
    prompts p (log ++ out) = prompts p log ++ prompts p out := List.filterMap_append

/-- The driver writes nothing. -/
theorem texts_kernel (p : Pid) (out : List (Timestamps.Event Pid)) :
    texts p (out.map .kernel) = [] ∧ prompts p (out.map .kernel) = [] := by
  induction out with
  | nil => exact ⟨rfl, rfl⟩
  | cons e out ih => exact ih

theorem removedBy_others {out : List (Timestamps.Event Pid)} (h : ∀ e ∈ out, reader e ≠ some p) :
    removedBy p (out.map .kernel) = [] := by
  induction out with
  | nil => rfl
  | cons e out ih =>
    have hrest := ih fun e he => h e (List.mem_cons_of_mem _ he)
    have he := h e List.mem_cons_self
    cases e with
    | removed q value =>
      have hq : q ≠ p := fun hq => he (congrArg some hq)
      simpa [removedBy, hq] using hrest
    | recorded | dropped | returned => exact hrest

theorem turns_succ (n : ℕ) : turns (n + 1) = turns n ++ [prompt.getD (n % 4) 0] := by
  simp [turns, List.range_succ]

end Histories

/-! ### One process -/

/-- Where the process is: in the driver only while it reads, and in a read that does not wait. -/
def At (x : Proc) : CatPc → Prop
  | .reading => InRead x
  | .ended => False
  | _ => x = .outside

/-- The index of the prompt, when so many have been written. -/
def Turned (n i : ℕ) : CatPc → Prop
  | .backspace => i < 4 ∧ (i + 1) % 4 = n % 4
  | _ => i = n % 4

/-- What is known of a process that runs `cat-non-block`. -/
structure Going (abi : Abi) (p : Pid) (s : State Pid) (log : List (Event Pid)) : Prop where
  at_pc : At (s.driver.proc p) (s.cat p).pc
  texts_hand : texts p log ++ hand abi (s.driver.proc p) (s.cat p).pc =
    (removedBy p log).map (written abi)
  prompts_eq : prompts p log = turns (prompts p log).length
  turned : Turned (prompts p log).length (s.cat p).i (s.cat p).pc

section OneProcess

open Timestamps (setProc_of_ne setProc_self)

variable {v : Version} {abi : Abi} {cats : Pid → Bool} {s s' : State Pid} {log out : List (Event Pid)}
  {p : Pid}

theorem going_init (abi : Abi) (p : Pid) (array : Memory ℕ) (jiffies : ℕ) :
    Going abi p (init Pid array jiffies) [] := ⟨rfl, rfl, rfl, rfl⟩

theorem InRead.no_wait {x : Proc} (h : InRead x) (b : ReadArgs) (w : WaitPoint) :
    x ≠ .read b (.wait w) := by
  rintro rfl
  cases h

theorem At.no_wait {x : Proc} {pc : CatPc} (h : At x pc) (b : ReadArgs) (w : WaitPoint) :
    x ≠ .read b (.wait w) := by
  cases pc with
  | reading => exact InRead.no_wait h b w
  | ended => exact h.elim
  | read | copy | prompt | backspace | usleep =>
    rintro rfl
    cases h

@[simp] theorem setCat_driver (s : State Pid) (p : Pid) (c : Cat) :
    (s.setCat p c).driver = s.driver := rfl

@[simp] theorem setCat_self (s : State Pid) (p : Pid) (c : Cat) : (s.setCat p c).cat p = c :=
  Function.update_self ..

theorem setCat_of_ne {q : Pid} (hq : p ≠ q) (s : State Pid) (c : Cat) :
    (s.setCat q c).cat p = s.cat p := Function.update_of_ne hq ..

/-- A step that does not concern the process. -/
theorem Going.same (h : Going abi p s log) (hproc : s'.driver.proc p = s.driver.proc p)
    (hcat : s'.cat p = s.cat p) (hremoved : removedBy p out = []) (htexts : texts p out = [])
    (hprompts : prompts p out = []) : Going abi p s' (log ++ out) := by
  obtain ⟨hat, hhand, hprompt, hturned⟩ := h
  refine ⟨?_, ?_, ?_, ?_⟩
  · rw [hproc, hcat]
    exact hat
  · rw [texts_append, removedBy_append, hproc, hcat, htexts, hremoved, List.append_nil,
      List.append_nil]
    exact hhand
  · rw [prompts_append, hprompts, List.append_nil]
    exact hprompt
  · rw [prompts_append, hprompts, List.append_nil, hcat]
    exact hturned

/-- What a read that returns leads to. -/
theorem resume_others {d : Timestamps.State Pid} {dout : List (Timestamps.Event Pid)}
    (h : ∀ e ∈ dout, reader e ≠ some p) :
    (resume cats { s with driver := d } dout).driver = d ∧
      (resume cats { s with driver := d } dout).cat p = s.cat p := by
  unfold resume
  split
  · rename_i q n buffer
    split_ifs
    · refine ⟨rfl, setCat_of_ne ?_ ..⟩
      rintro rfl
      exact h _ (List.mem_singleton_self _) rfl
    · exact ⟨rfl, rfl⟩
  · exact ⟨rfl, rfl⟩

/-- A step of its read. -/
theorem going_read (hcat : cats p = true) (h : Going abi p s log)
    (hreading : (s.cat p).pc = .reading) {d : Timestamps.State Pid}
    {dout : List (Timestamps.Event Pid)}
    (hcase : ReadCase abi p (s.driver.proc p) (d.proc p) dout) :
    Going abi p (resume cats { s with driver := d } dout) (log ++ dout.map .kernel) := by
  obtain ⟨hat, hhand, hprompt, hturned⟩ := h
  obtain ⟨htexts, hprompts⟩ := texts_kernel p dout
  rw [hreading] at hhand hturned
  generalize hx : s.driver.proc p = x at hcase hhand
  generalize hy : d.proc p = y at hcase
  have hlog : prompts p (log ++ dout.map .kernel) = prompts p log := by
    rw [prompts_append, hprompts, List.append_nil]
  cases hcase with
  | empty =>
    refine ⟨?_, ?_, by rw [hlog]; exact hprompt, by rw [hlog]; simpa [resume, hreading] using hturned⟩
    · simp only [resume, hreading, hy]
      exact .testNonblock
    · simpa [resume, hreading, hy, texts_append, removedBy_append, hand] using hhand
  | removed value =>
    refine ⟨?_, ?_, by rw [hlog]; exact hprompt, by rw [hlog]; simpa [resume, hreading] using hturned⟩
    · simp only [resume, hreading, hy]
      exact .format value
    · have hnone : texts p log = (removedBy p log).map (written abi) := by
        simpa [hand] using hhand
      rw [texts_append, htexts, removedBy_append, hnone]
      simp [resume, hreading, hy, hand, removedBy]
  | again =>
    have hback : (s.cat p).returned (-eAgain) [] = ⟨(s.cat p).i, .prompt⟩ := rfl
    refine ⟨?_, ?_, by rw [hlog]; exact hprompt, ?_⟩
    · simp only [resume, hcat, if_true, setCat_driver, setCat_self, hback]
      exact hy
    · rw [texts_append, htexts, removedBy_append]
      simpa [resume, hcat, hback, hy, hand, removedBy] using hhand
    · rw [hlog]
      simpa [resume, hcat, hback, Turned] using hturned
  | delivered value =>
    have hback : (s.cat p).returned (written abi value).length (written abi value) =
        ⟨(s.cat p).i, .copy (written abi value)⟩ := by
      have hpos : ((written abi value).length : ℤ) > 0 := by simp [written]
      rw [Cat.returned, if_pos hpos, Int.toNat_natCast, List.take_length]
    refine ⟨?_, ?_, by rw [hlog]; exact hprompt, ?_⟩
    · simp only [resume, hcat, if_true, setCat_driver, setCat_self, hback]
      exact hy
    · rw [texts_append, htexts, removedBy_append]
      simpa [resume, hcat, hback, hy, hand, removedBy] using hhand
    · rw [hlog]
      simpa [resume, hcat, hback, Turned] using hturned

/-- A step of the driver's. -/
theorem going_kernel (hv : v ≠ .v08) (hcat : cats p = true) (h : Going abi p s log)
    {a : Timestamps.Act Pid} (hstep : step v abi cats s (.kernel a) = some (s', out)) :
    Going abi p s' (log ++ out) := by
  simp only [step] at hstep
  split_ifs at hstep with hallowed
  obtain ⟨⟨d, dout⟩, hdriver, heq⟩ := Option.map_eq_some_iff.1 hstep
  cases heq
  by_cases howner : SelectLoop.owner a = some p
  · -- of its own, the process only executes statements in the driver
    cases a with
    | run q =>
      cases howner
      have hin : InRead (s.driver.proc p) ∧ (s.cat p).pc = .reading := by
        have hat := h.at_pc
        cases hpc : (s.cat p).pc with
        | reading =>
          rw [hpc] at hat
          exact ⟨hat, rfl⟩
        | ended =>
          rw [hpc] at hat
          exact hat.elim
        | read | copy | prompt | backspace | usleep =>
          rw [hpc] at hat
          have hout : s.driver.proc p = .outside := hat
          simp [Timestamps.step, hout] at hdriver
      exact going_read hcat h hin.2 (step_own hv hin.1 hdriver)
    | interrupt q | read q b | signal q =>
      cases howner
      simp [allowed, hcat] at hallowed
    | tick => cases howner
  · obtain ⟨hproc, hothers⟩ := step_others howner h.at_pc.no_wait hdriver
    obtain ⟨hd, hsame⟩ : (resume cats { s with driver := d } dout).driver = d ∧
        (resume cats { s with driver := d } dout).cat p = s.cat p := resume_others hothers
    obtain ⟨htexts, hprompts⟩ := texts_kernel p dout
    exact h.same (by rw [hd, hproc]) hsame (removedBy_others hothers) htexts hprompts

/-- A statement of the process itself. -/
theorem going_catStep (h : Going abi p s log)
    (hstep : catStep s p (s.cat p).i (s.cat p).pc = some (s', out)) : Going abi p s' (log ++ out) := by
  obtain ⟨hat, hhand, hprompt, hturned⟩ := h
  cases hpc : (s.cat p).pc with
  | read =>
    rw [hpc] at hstep hat hhand hturned
    cases hstep
    have hout : s.driver.proc p = .outside := hat
    rw [List.append_nil]
    refine ⟨?_, ?_, hprompt, ?_⟩
    · simpa [setProc_self, At] using InRead.lock
    · simpa [setProc_self, hand, hout] using hhand
    · simpa [Turned] using hturned
  | reading | ended =>
    rw [hpc] at hstep
    cases hstep
  | copy bytes =>
    rw [hpc] at hstep hat hhand hturned
    cases hstep
    have hout : s.driver.proc p = .outside := hat
    have hprompts : prompts p [Event.text p bytes] = [] := rfl
    refine ⟨?_, ?_, ?_, ?_⟩
    · simpa [At] using hout
    · rw [removedBy_append, texts_append]
      simpa [hand, hout, texts, removedBy] using hhand
    · rw [prompts_append, hprompts, List.append_nil]
      exact hprompt
    · rw [prompts_append, hprompts, List.append_nil]
      simpa [Turned] using hturned
  | prompt =>
    rw [hpc] at hstep hat hhand hturned
    cases hstep
    have hout : s.driver.proc p = .outside := hat
    have hi : (s.cat p).i = (prompts p log).length % 4 := hturned
    have hprompts : prompts p (log ++ [Event.prompt p (prompt.getD (s.cat p).i 0)]) =
        prompts p log ++ [prompt.getD (s.cat p).i 0] := by
      rw [prompts_append]
      simp [prompts]
    refine ⟨?_, ?_, ?_, ?_⟩
    · simpa [At] using hout
    · rw [removedBy_append, texts_append]
      simpa [hand, hout, texts, removedBy] using hhand
    · rw [hprompts, List.length_append, List.length_singleton, turns_succ, ← hprompt, ← hi]
    · rw [hprompts, List.length_append, List.length_singleton]
      simp only [setCat_self, Turned]
      omega
  | backspace =>
    rw [hpc] at hstep hat hhand hturned
    cases hstep
    have hout : s.driver.proc p = .outside := hat
    obtain ⟨hlt, hi⟩ : (s.cat p).i < 4 ∧ ((s.cat p).i + 1) % 4 = (prompts p log).length % 4 := hturned
    have hprompts : prompts p [Event.backspace p] = [] := rfl
    refine ⟨?_, ?_, ?_, ?_⟩
    · simpa [At] using hout
    · rw [removedBy_append, texts_append]
      simpa [hand, hout, texts, removedBy] using hhand
    · rw [prompts_append, hprompts, List.append_nil]
      exact hprompt
    · rw [prompts_append, hprompts, List.append_nil]
      simp only [setCat_self, Turned]
      split_ifs <;> omega
  | usleep =>
    rw [hpc] at hstep hat hhand hturned
    cases hstep
    have hout : s.driver.proc p = .outside := hat
    rw [List.append_nil]
    refine ⟨?_, ?_, hprompt, ?_⟩
    · simpa [At] using hout
    · simpa [hand, hout] using hhand
    · simpa [Turned] using hturned

/-- A statement of another process leaves it alone. -/
theorem catStep_others {q : Pid} (hq : p ≠ q) {i : ℕ} {pc : CatPc}
    (hstep : catStep s q i pc = some (s', out)) :
    s'.driver.proc p = s.driver.proc p ∧ s'.cat p = s.cat p ∧ removedBy p out = [] ∧
      texts p out = [] ∧ prompts p out = [] := by
  cases pc with
  | read =>
    cases hstep
    exact ⟨setProc_of_ne hq .., setCat_of_ne hq .., rfl, rfl, rfl⟩
  | reading | ended => cases hstep
  | copy | prompt | backspace | usleep =>
    cases hstep
    exact ⟨rfl, setCat_of_ne hq .., by simp [removedBy], by simp [texts, Ne.symm hq],
      by simp [prompts, Ne.symm hq]⟩

theorem going_step (hv : v ≠ .v08) (hcat : cats p = true) (h : Going abi p s log) {a : Act Pid}
    (hstep : step v abi cats s a = some (s', out)) : Going abi p s' (log ++ out) := by
  cases a with
  | kernel a => exact going_kernel hv hcat h hstep
  | run q =>
    simp only [step] at hstep
    split_ifs at hstep
    by_cases hq : p = q
    · subst hq
      exact going_catStep h hstep
    · obtain ⟨hproc, hsame, hremoved, htexts, hprompts⟩ := catStep_others hq hstep
      exact h.same hproc hsame hremoved htexts hprompts

/-- **Reading without blocking**: in every run, each process that runs `cat-non-block` does not wait in a
read and stays in its loop; what it has written of the device, and what it holds in its hand, are the
texts of the times that it has taken out, in that order and each once; and its prompts are the four
characters in turn. -/
theorem cat_non_block_goes_on (hv : v ≠ .v08) (hcat : cats p = true) {array : Memory ℕ} {jiffies : ℕ}
    {acts : List (Act Pid)} (hrun : (system v abi cats).exec (init Pid array jiffies) acts = some (s, log)) :
    (∀ b w, s.driver.proc p ≠ .read b (.wait w)) ∧ (s.cat p).pc ≠ .ended ∧
      texts p log ++ hand abi (s.driver.proc p) (s.cat p).pc = (removedBy p log).map (written abi) ∧
      prompts p log = turns (prompts p log).length := by
  have h : Going abi p s log := System.exec_induction (I := Going abi p)
    (fun _ _ _ _ _ hbefore hstep => going_step hv hcat hbefore hstep)
    (going_init abi p array jiffies) hrun
  refine ⟨h.at_pc.no_wait, ?_, h.texts_hand, h.prompts_eq⟩
  intro hend
  have hat := h.at_pc
  rw [hend] at hat
  exact hat

end OneProcess

/-! ### An example -/

/-- One process runs `cat-non-block`: a prompt, an interrupt at time 7, then its text. -/
def promptThenText : List (Act Bool) :=
  [.run true] ++ List.replicate 2 (.kernel (.run true)) ++ List.replicate 3 (.run true) ++
    [.kernel (.interrupt false), .kernel (.run false), .run true, .kernel (.run true),
      .kernel (.run true), .run true]

theorem cat_non_block_goes_on_text :
    ∃ (s : State Bool) (log : List (Event Bool)),
      (system .v09 .lp64 id).exec (init Bool (fun _ => 0) 7) promptThenText = some (s, log) ∧
        texts true log = [[55, 10, 0]] ∧ (s.cat true).pc ≠ .ended ∧
        prompts true log = turns (prompts true log).length := by
  obtain ⟨⟨s, log⟩, hrun, hval⟩ := Option.map_eq_some_iff.1
    (show ((system .v09 .lp64 id).exec (init Bool (fun _ => 0) 7) promptThenText).map
        (fun r => texts true r.2) = some [[55, 10, 0]] by decide +kernel)
  obtain ⟨-, hgoes, -, hprompts⟩ := cat_non_block_goes_on (p := true) (by decide) rfl hrun
  exact ⟨s, log, hrun, hval, hgoes, hprompts⟩

end IldDrivers.CatNonBlock
