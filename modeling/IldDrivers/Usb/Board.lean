import IldDrivers.Usb.Window

/-!
# The calls as the user and the board see them (`example-VII-04`, `example-VII-05`)

Between a call and its return there are a mutex, two waits, a buffer that is filled byte by byte and a
URB that completes some time or other, and meanwhile other processes do the same. From outside a call
is simple: it has one transfer at most, of its own bytes, and what it returns says how this has ended.

* `Sight`, `watched`: the driver with what can be seen of it: calls, transfers and returns;
* `Follows`: what is seen of a process is what its calls should do;
* `Fits`: what has been seen of a call at each of its statements;
* `calls_follow`: so it is in all runs in which no call abandons its URB.
-/

namespace IldDrivers.ExampleVII.Board

variable {Pid : Type*}

/-! ### What is seen -/

/-- A URB that completes is seen with the process that has submitted it and the bytes of its buffer. -/
inductive Sight (Pid : Type*)
  | called (p : Pid) (c : Call)
  | transferred (p : Option Pid) (d : Direction) (status : ℤ) (report : List UInt8)
  | returned (p : Pid) (c : Call) (ret : ℤ) (user : List UInt8)

/-- The process that is seen. -/
def Sight.pid : Sight Pid → Option Pid
  | .called p _ | .returned p _ _ _ => some p
  | .transferred p _ _ _ => p

/-- The driver, with the process that has submitted the URB of a direction last. -/
structure Watched (Pid : Type*) where
  driver : State Pid
  submitter : Direction → Option Pid

/-- Who has submitted the URBs after a step. -/
def Watched.submitters (w : Watched Pid) : Act Pid → Direction → Option Pid
  | .proc p (.submit err) =>
      match w.driver.proc p with
      | .call c _ _ => if err = 0 then Function.update w.submitter c.dir (some p) else w.submitter
      | _ => w.submitter
  | _ => w.submitter

/-- What is seen of a step that leads to `s`. -/
def Watched.seen (w : Watched Pid) (s : State Pid) : Act Pid → List (Sight Pid)
  | .start p c => [.called p c]
  | .complete d status _ => [.transferred (w.submitter d) d status ((s.chan d).bytes.load 0 8)]
  | .proc p .run =>
      match w.driver.proc p with
      | .call c _ (.ret ret user _) => [.returned p c ret user]
      | _ => []
  | _ => []

def watched (S : Setup) (Pid : Type*) [DecidableEq Pid] :
    System (Watched Pid) (Act Pid) (Sight Pid) where
  step w act := (step S w.driver act).map fun r => (⟨r.1, w.submitters act⟩, w.seen r.1 act)

def start (Pid : Type*) (heap : Direction → Memory UInt8) : Watched Pid :=
  ⟨init Pid heap [], fun _ => none⟩

/-! ### What is expected -/

/-- How far a process has come. -/
inductive Phase
  | idle
  | called (c : Call)
  | transferred (c : Call) (status : ℤ) (report : List UInt8)

def Phase.call : Phase → Option Call
  | .idle => none
  | .called c | .transferred c _ _ => some c

/-- A transfer of these bytes belongs to the call: a write sends the low bytes of the numbers that it has
read, and a read that does not continue the text before it takes whatever comes. -/
def Carries (S : Setup) (report : List UInt8) : Call → Prop
  | .write a => ∃ o, prepare S a = some (.ok o) ∧ report = lowBytes o
  | .read a => a.offset = 0

/-- What a call returns, `E` being the errors of `usb_submit_urb`. -/
inductive Answers (S : Setup) (E : Set ℤ) : Phase → ℤ → Prop
  | refused {a : WriteArgs} {err : ℤ} (h : prepare S a = some (.error err)) :
      Answers S E (.called (.write a)) err
  | continued {a : ReadArgs} {ret : ℤ} (h : a.offset ≠ 0) : Answers S E (.called (.read a)) ret
  | unserved {c : Call} {report : List UInt8} {ret : ℤ} (hready : Carries S report c)
      (hret : ret = -eNoDev ∨ ret = -eRestartSys ∨ ret ∈ E) : Answers S E (.called c) ret
  | written {a : WriteArgs} {report : List UInt8} :
      Answers S E (.transferred (.write a) 0 report) a.data.length
  | read {a : ReadArgs} {report : List UInt8} {ret : ℤ} :
      Answers S E (.transferred (.read a) 0 report) ret
  | failed {c : Call} {status : ℤ} {report : List UInt8} (h : status ≠ 0) :
      Answers S E (.transferred c status report) c.statusError
  | interrupted {c : Call} {status : ℤ} {report : List UInt8} :
      Answers S E (.transferred c status report) (-eRestartSys)

/-- What may be seen of process `p` next. -/
inductive Next (S : Setup) (E : Set ℤ) (p : Pid) : Phase → Sight Pid → Phase → Prop
  | called {c : Call} : Next S E p .idle (.called p c) (.called c)
  | transferred {c : Call} {status : ℤ} {report : List UInt8} (h : Carries S report c) :
      Next S E p (.called c) (.transferred (some p) c.dir status report)
        (.transferred c status report)
  | returned {ph : Phase} {c : Call} {ret : ℤ} {user : List UInt8} (hcall : ph.call = some c)
      (h : Answers S E ph ret) : Next S E p ph (.returned p c ret user) .idle

/-- What is seen of process `p` is what its calls should do, and leads to this phase. -/
inductive Follows (S : Setup) (E : Set ℤ) (p : Pid) : List (Sight Pid) → Phase → Prop
  | nil : Follows S E p [] .idle
  | own {log : List (Sight Pid)} {ph ph' : Phase} {x : Sight Pid} (h : Follows S E p log ph)
      (hx : Next S E p ph x ph') : Follows S E p (log ++ [x]) ph'
  | other {log : List (Sight Pid)} {ph : Phase} {x : Sight Pid} (h : Follows S E p log ph)
      (hx : x.pid ≠ some p) : Follows S E p (log ++ [x]) ph

/-! ### What has been seen at each statement -/

/-- Where a call waits for its URB, or gives up waiting. -/
def Pc.awaits : Pc → Bool
  | .doneTest | .doneWait | .clearBusy .signal _ => true
  | _ => false

/-- The URB of the call is in flight, or has been seen. -/
def Awaited (S : Setup) (ch : Channel Pid) (submitter : Option Pid) (p : Pid) (c : Call)
    (ph : Phase) : Prop :=
  if ch.inFlight then ph = .called c ∧ submitter = some p ∧ Carries S (ch.bytes.load 0 8) c
  else ph = .transferred c ch.status (ch.bytes.load 0 8)

/-- The text of a read comes from its own transfer, or from an earlier one. -/
def HasText (c : Call) (ph : Phase) : Prop :=
  ∃ a, c = .read a ∧ (ph = .called c ∧ a.offset ≠ 0 ∨ ∃ report, ph = .transferred c 0 report)

/-- What has been seen of the call of process `p` at a statement. -/
def Fits (S : Setup) (E : Set ℤ) (ch : Channel Pid) (submitter : Option Pid) (p : Pid) (c : Call)
    (ph : Phase) : Pc → Prop
  | .enter => ph = .called c
  | .lock | .testDevice | .unlockNoDev | .busyTest | .busyWait | .setBusy | .store _ | .fill
  | .submit => ph = .called c ∧ ∃ report, Carries S report c
  | .doneTest | .doneWait => Awaited S ch submitter p c ph
  | .checkStatus => ph = .transferred c ch.status (ch.bytes.load 0 8)
  | .clearBusy .submit ret => (ph = .called c ∧ ∃ report, Carries S report c) ∧ ret ∈ E
  | .clearBusy .signal ret => Awaited S ch submitter p c ph ∧ ret = -eRestartSys
  | .clearBusy .status ret =>
      ∃ status report, ph = .transferred c status report ∧ status ≠ 0 ∧ ret = c.statusError
  | .format => ph = .transferred c 0 (ch.bytes.load 0 8) ∧ c.dir = .input
  | .unlock none | .measure | .copyOut _ => HasText c ph
  | .unlock (some ret) | .ret ret _ _ => ph.call = some c ∧ Answers S E ph ret

theorem HasText.answers {S : Setup} {E : Set ℤ} {c : Call} {ph : Phase} (h : HasText c ph)
    (ret : ℤ) : ph.call = some c ∧ Answers S E ph ret := by
  obtain ⟨a, rfl, ⟨rfl, hoffset⟩ | ⟨report, rfl⟩⟩ := h
  · exact ⟨rfl, .continued hoffset⟩
  · exact ⟨rfl, .read⟩

theorem Pc.holds_of_awaits {pc : Pc} (h : Pc.awaits pc = true) : pc.holds = true := by
  cases pc <;> first | rfl | cases h

/-- Outside the critical section this does not depend on the direction. -/
theorem Fits.outside {S : Setup} {E : Set ℤ} {ch ch' : Channel Pid} {sub sub' : Option Pid} {p : Pid}
    {c : Call} {ph : Phase} {pc : Pc} (h : Fits S E ch sub p c ph pc) (hpc : pc.holds = false) :
    Fits S E ch' sub' p c ph pc := by
  cases pc with
  | enter | lock | measure | copyOut | ret => exact h
  | _ => cases hpc

/-- Inside it depends on the URB and the bytes of the buffer. -/
theorem Fits.congr {S : Setup} {E : Set ℤ} {ch ch' : Channel Pid} {sub : Option Pid} {p : Pid}
    {c : Call} {ph : Phase} {pc : Pc} (h : Fits S E ch sub p c ph pc) (hflight : ch'.inFlight = ch.inFlight)
    (hstatus : ch'.status = ch.status) (hbytes : ch'.bytes = ch.bytes) :
    Fits S E ch' sub p c ph pc := by
  have hawaited : Awaited S ch' sub p c ph ↔ Awaited S ch sub p c ph := by
    unfold Awaited
    rw [hflight, hstatus, hbytes]
  cases pc with
  | doneTest | doneWait => exact hawaited.2 h
  | checkStatus | format =>
    unfold Fits at h ⊢
    rw [hbytes]
    first | exact h | rw [hstatus]; exact h
  | clearBusy site ret =>
    cases site with
    | submit | status => exact h
    | signal => exact ⟨hawaited.2 h.1, h.2⟩
  | unlock ret => cases ret <;> exact h
  | _ => exact h

/-! ### One statement -/

theorem fits_runStep {S : Setup} {E : Set ℤ} {device : Ptr} {sub : Option Pid} {p : Pid} {c : Call}
    {ph : Phase} {f f' : Frame Pid} (h : Fits S E f.ch sub p c ph f.pc)
    (hbusy : f.ch.inFlight = true → f.ch.busy ≠ 0)
    (habandon : ∀ ret, f.pc = .clearBusy .signal ret → f.ch.inFlight = false)
    (hrun : runStep S device p c f = some f') : Fits S E f'.ch sub p c ph f'.pc := by
  obtain ⟨ch, kBuffer, o, pc⟩ := f
  cases ran_of_runStep hrun with
  | refuses a err hc hpc hprepare hf' =>
    cases hpc
    subst hc hf'
    cases h
    exact ⟨rfl, .refused hprepare⟩
  | prepares a o' hc hpc hprepare hf' =>
    cases hpc
    subst hc hf'
    exact ⟨h, lowBytes o', o', hprepare, rfl⟩
  | begins a hc hpc hoffset hf' =>
    cases hpc
    subst hc hf'
    exact ⟨h, [], hoffset⟩
  | continues a hc hpc hoffset hf' =>
    cases hpc
    subst hc hf'
    exact ⟨a, rfl, .inl ⟨h, hoffset⟩⟩
  | locks hpc _ hf' | noDevice hpc _ hf' | hasDevice hpc _ hf' | waitsBusy hpc _ hf'
  | passes hpc _ hf' | wakesBusy hpc _ hf' | fills hpc hf' | waitsDone hpc _ hf'
  | wakesDone hpc _ hf' =>
    cases hpc
    subst hf'
    exact h
  | unlocksNoDev hpc hf' =>
    cases hpc
    subst hf'
    obtain ⟨rfl, report, hready⟩ := h
    exact ⟨rfl, .unserved hready (.inl rfl)⟩
  | marks hpc hf' =>
    cases hpc
    subst hf'
    cases c <;> exact h
  | stores i hpc hf' =>
    cases hpc
    subst hf'
    dsimp only
    split_ifs <;> exact h
  | done hpc hidle hf' =>
    cases hpc
    subst hf'
    -- `busy` is 0, so the URB has completed
    have hlanded : ch.inFlight = false := by
      by_contra hflight
      exact hbusy (by simpa using hflight) hidle
    simpa only [Fits, Awaited, hlanded, Bool.false_eq_true, if_false] using h
  | fails hpc hstatus hf' =>
    cases hpc
    subst hf'
    exact ⟨_, _, h, hstatus, rfl⟩
  | succeeds hpc hstatus hf' =>
    cases hpc
    subst hf'
    simp only [Fits, show ch.status = 0 from hstatus] at h
    subst h
    cases c with
    | write a => exact ⟨rfl, .written⟩
    | read a => exact ⟨rfl, rfl⟩
  | clears site ret hpc hf' =>
    cases hpc
    subst hf'
    cases site with
    | submit =>
      obtain ⟨⟨rfl, report, hready⟩, hret⟩ := h
      exact ⟨rfl, .unserved hready (.inr (.inr hret))⟩
    | signal =>
      obtain ⟨hawaited, rfl⟩ := h
      have hlanded : ch.inFlight = false := habandon _ rfl
      simp only [Awaited, hlanded, Bool.false_eq_true, if_false] at hawaited
      subst hawaited
      exact ⟨rfl, .interrupted⟩
    | status =>
      obtain ⟨status, report, rfl, hstatus, rfl⟩ := h
      exact ⟨rfl, .failed hstatus⟩
  | formats hpc hf' =>
    cases hpc
    subst hf'
    obtain ⟨rfl, hdir⟩ := h
    cases c with
    | write a => cases hdir
    | read a => exact ⟨a, rfl, .inr ⟨_, rfl⟩⟩
  | unlocks ret hpc hf' | unlocksText hpc hf' =>
    cases hpc
    subst hf'
    exact h
  | measures a hc hpc hf' =>
    cases hpc
    subst hf'
    rw [tailStep_measure]
    dsimp only
    split_ifs
    · exact HasText.answers h 0
    · exact h
  | copies a lg hc hpc hf' =>
    cases hpc
    subst hf'
    obtain ⟨ret, user, advance, htail, -⟩ :=
      tailStep_copyOut S a ⟨ch, kBuffer, o, .copyOut lg⟩ lg
    rw [htail]
    exact HasText.answers h ret

/-- The end of a wait, and the submission of the URB: `sub` is who has submitted it afterwards. -/
theorem fits_callStep {S : Setup} {E : Set ℤ} {device : Ptr} {sub sub' : Option Pid} {p : Pid}
    {c : Call} {ph : Phase} {f f' : Frame Pid} {e : Event} (h : Fits S E f.ch sub p c ph f.pc)
    (hloaded : ∀ a, c = .write a → Loaded S a f.o f.ch.bytes f.pc)
    (hbusy : f.ch.inFlight = true → f.ch.busy ≠ 0)
    (habandon : e = .run → ∀ ret, f.pc = .clearBusy .signal ret → f.ch.inFlight = false)
    (hmine : e = .submit 0 → sub' = some p) (hsame : e ≠ .submit 0 → sub' = sub)
    (herr : ∀ err, e = .submit err → err ≠ 0 → err ∈ E)
    (hstep : callStep S device p c f e = some f') : Fits S E f'.ch sub' p c ph f'.pc := by
  obtain ⟨ch, kBuffer, o, pc⟩ := f
  cases e with
  | run =>
    rw [hsame fun heq => by cases heq]
    exact fits_runStep h hbusy (habandon rfl) hstep
  | submit err =>
    simp only [callStep, submitStep] at hstep
    split at hstep
    · obtain ⟨rfl, report, hready⟩ := h
      split_ifs at hstep with hurb hne hflight
      · cases hstep
        exact ⟨⟨rfl, report, hready⟩, herr err rfl hne⟩
      · cases hstep
        have hmine' := hmine (by rw [not_not.1 hne])
        simp only [Fits, Awaited, if_true, true_and]
        refine ⟨hmine', ?_⟩
        -- what the write has stored
        cases c with
        | write a =>
          obtain ⟨hprepare, hbytes⟩ := hloaded a rfl
          exact ⟨o, hprepare, hbytes⟩
        | read a => exact hready
    · cases hstep
  | signal =>
    rw [hsame fun heq => by cases heq]
    simp only [callStep, signalStep] at hstep
    split at hstep
    · cases hstep
      obtain ⟨rfl, report, hready⟩ := h
      exact ⟨rfl, .unserved hready (.inr (.inl rfl))⟩
    · split_ifs at hstep
      cases hstep
      obtain ⟨rfl, report, hready⟩ := h
      exact ⟨rfl, .unserved hready (.inr (.inl rfl))⟩
    · split_ifs at hstep
      cases hstep
      exact ⟨h, rfl⟩
    · cases hstep
  | timeout =>
    rw [hsame fun heq => by cases heq]
    simp only [callStep, timeoutStep] at hstep
    split at hstep
    · cases hstep
      exact h
    · cases hstep
      exact h
    · cases hstep

/-- A submission that succeeds. -/
theorem submits_of_callStep {S : Setup} {device : Ptr} {p : Pid} {c : Call} {f f' : Frame Pid}
    (h : callStep S device p c f (.submit 0) = some f') : f.pc = .submit ∧ f'.pc = .doneTest := by
  simp only [callStep, submitStep, ne_eq, not_true_eq_false, if_false] at h
  split at h
  · next hpc =>
    split_ifs at h
    cases h
    exact ⟨hpc, rfl⟩
  · cases h

theorem flight_of_statement {device : Ptr} {p : Pid} {e : Event} {f f' : Frame Pid}
    (h : Statement device p e f f') (he : e ≠ .submit 0) : f'.ch.inFlight = f.ch.inFlight := by
  cases h with
  | submits he' => exact absurd he' he
  | stores _ _ _ hch =>
    obtain ⟨bytes, hch⟩ := hch
    rw [hch]
  | outside _ _ hch | locks _ _ _ hch | unlocks _ _ hch | goes _ _ hch | marks _ _ hch
  | clears _ _ _ _ _ hch => rw [hch]

/-- A call that waits for its URB goes on waiting for it. -/
theorem awaits_callStep {S : Setup} {device : Ptr} {p : Pid} {c : Call} {f f' : Frame Pid} {e : Event}
    (hpc : Pc.awaits f.pc = true) (hbusy : f.ch.busy ≠ 0)
    (habandon : e = .run → ∀ ret, f.pc ≠ .clearBusy .signal ret)
    (hstep : callStep S device p c f e = some f') : Pc.awaits f'.pc = true := by
  obtain ⟨ch, kBuffer, o, pc⟩ := f
  by_cases he : e = .run
  · subst he
    cases ran_of_runStep hstep with
    | waitsDone _ _ hf' =>
      subst hf'
      rfl
    | done _ hidle | wakesDone _ hidle => exact absurd hidle hbusy
    | clears site ret hpc' hf' =>
      cases hpc'
      cases site with
      | signal => exact absurd rfl (habandon rfl ret)
      | submit | status => cases hpc
    | refuses _ _ _ hpc' | prepares _ _ _ hpc' | begins _ _ hpc' | continues _ _ hpc' | locks hpc'
    | noDevice hpc' | hasDevice hpc' | unlocksNoDev hpc' | waitsBusy hpc' | passes hpc'
    | wakesBusy hpc' | marks hpc' | stores _ hpc' | fills hpc' | fails hpc' | succeeds hpc'
    | formats hpc' | unlocks _ hpc' | unlocksText hpc' | measures _ _ hpc' | copies _ _ _ hpc' =>
      cases hpc'
      cases hpc
  · cases waited_of_callStep hstep he with
    | leavesDone _ hf' | timesDone _ hf' =>
      subst hf'
      rfl
    | refused _ hpc' | submits hpc' | leavesLock hpc' | leavesBusy hpc' | timesBusy hpc' =>
      cases hpc'
      cases hpc

/-- A statement outside the critical section leaves the URB and the bytes of the buffer alone. -/
theorem view_of_statement {device : Ptr} {p : Pid} {e : Event} {f f' : Frame Pid}
    (h : Statement device p e f f') (hpc : f.pc.holds = false) :
    f'.ch.inFlight = f.ch.inFlight ∧ f'.ch.status = f.ch.status ∧ f'.ch.bytes = f.ch.bytes := by
  cases h with
  | outside _ _ hch | locks _ _ _ hch =>
    rw [hch]
    exact ⟨rfl, rfl, rfl⟩
  | unlocks hin | goes hin =>
    rw [hpc] at hin
    cases hin
  | marks hin | stores _ hin | submits _ hin | clears _ _ _ hin =>
    rw [hin] at hpc
    cases hpc

/-- `example_release` leaves the directions alone, or nobody is inside a call; it submits no URB. -/
theorem chan_of_releaseStatement [DecidableEq Pid] {s s' : State Pid} {p : Pid} {pc : ReleasePc}
    (h : ReleaseStatement s p pc s') :
    s'.chan = s.chan ∨
      pc.counts = true ∧ ∀ d, (s'.chan d).inFlight = true → (s.chan d).inFlight = true := by
  cases h with
  | givesUp _ hs' | locks _ _ _ _ hs' | looks _ _ _ _ hs' | decrements _ hs' | unlocks _ hs' =>
    rw [hs']
    exact .inl rfl
  | kills ch hpc _ hch hs' =>
    subst hpc hs'
    refine .inr ⟨rfl, fun d hflight => ?_⟩
    cases d with
    | input => exact hflight
    | output =>
      change ch.inFlight = true at hflight
      rcases hch with ⟨rfl, -⟩ | rfl
      · exact hflight
      · cases hflight
  | clears hpc hs' =>
    subst hpc hs'
    refine .inr ⟨rfl, fun d hflight => ?_⟩
    cases d <;> exact hflight

/-! ### Every run -/

/-- A URB that is in flight is that of a call which waits for it. -/
def Owned (w : Watched Pid) : Prop :=
  ∀ d, (w.driver.chan d).inFlight = true → ∃ p c o pc, w.submitter d = some p ∧
    w.driver.proc p = .call c o pc ∧ c.dir = d ∧ Pc.awaits pc = true

/-- What has been seen of process `p`. -/
def Explains (S : Setup) (E : Set ℤ) (w : Watched Pid) (p : Pid) (ph : Phase) : Prop :=
  match w.driver.proc p with
  | .call c _ pc => Fits S E (w.driver.chan c.dir) (w.submitter c.dir) p c ph pc
  | _ => ph = .idle

/-- The invariant. -/
structure Keeps (S : Setup) (E : Set ℤ) (w : Watched Pid) (log : List (Sight Pid)) : Prop where
  flying : Flying w.driver
  written : Written S w.driver
  owned : Owned w
  follows : ∀ p, ∃ ph, Follows S E p log ph ∧ Explains S E w p ph
  seen : ∀ x ∈ log, x.pid.isSome

/-- What has been seen of a process that stays where it is. -/
theorem Explains.stay {S : Setup} {E : Set ℤ} {w w' : Watched Pid} {q : Pid} {ph : Phase}
    (h : Explains S E w q ph)
    (hproc : w'.driver.proc q = w.driver.proc q)
    (hview : ∀ c o pc, w.driver.proc q = .call c o pc → pc.holds = true →
      w'.submitter c.dir = w.submitter c.dir ∧
      (w'.driver.chan c.dir).inFlight = (w.driver.chan c.dir).inFlight ∧
      (w'.driver.chan c.dir).status = (w.driver.chan c.dir).status ∧
      (w'.driver.chan c.dir).bytes = (w.driver.chan c.dir).bytes) : Explains S E w' q ph := by
  unfold Explains at h ⊢
  rw [hproc]
  cases hq : w.driver.proc q with
  | user | release =>
    rw [hq] at h
    exact h
  | call c o pc =>
    rw [hq] at h
    cases hpc : pc.holds with
    | false => exact Fits.outside h hpc
    | true =>
      obtain ⟨hsub, hflight, hstatus, hbytes⟩ := hview c o pc hq hpc
      change Fits S E _ (w'.submitter c.dir) q c ph pc
      rw [hsub]
      exact Fits.congr h hflight hstatus hbytes

theorem explains_idle {S : Setup} {E : Set ℤ} {w : Watched Pid} {p : Pid} {ph : Phase}
    (h : Explains S E w p ph)
    (hp : ∀ c o pc, w.driver.proc p ≠ .call c o pc) : ph = .idle := by
  unfold Explains at h
  split at h
  · next c o pc hcall => exact absurd hcall (hp c o pc)
  · exact h

theorem explains_of_idle {S : Setup} {E : Set ℤ} {w : Watched Pid} {p : Pid}
    (hp : ∀ c o pc, w.driver.proc p ≠ .call c o pc) : Explains S E w p .idle := by
  unfold Explains
  split
  · next c o pc hcall => exact absurd hcall (hp c o pc)
  · rfl

theorem explains_call {S : Setup} {E : Set ℤ} {w : Watched Pid} {p : Pid} {ph : Phase} {c : Call}
    {o : Fin 8 → ℤ} {pc : Pc} (hp : w.driver.proc p = .call c o pc) :
    Explains S E w p ph ↔ Fits S E (w.driver.chan c.dir) (w.submitter c.dir) p c ph pc := by
  unfold Explains
  rw [hp]

theorem submitters_self {w : Watched Pid} {p : Pid} {c : Call} {o : Fin 8 → ℤ} {pc : Pc}
    (hp : w.driver.proc p = .call c o pc) :
    w.submitters (.proc p (.submit 0)) c.dir = some p := by
  simp only [Watched.submitters, hp, if_true, Function.update_self]

theorem submitters_same {w : Watched Pid} {p : Pid} {c : Call} {o : Fin 8 → ℤ} {pc : Pc}
    (hp : w.driver.proc p = .call c o pc) {e : Event} {d : Direction}
    (h : e ≠ .submit 0 ∨ d ≠ c.dir) : w.submitters (.proc p e) d = w.submitter d := by
  cases e with
  | run | signal | timeout => rfl
  | submit err =>
    simp only [Watched.submitters, hp]
    split_ifs with herr
    · subst herr
      exact Function.update_of_ne (h.resolve_left (not_not_intro rfl)) ..
    · rfl

section Update

variable [DecidableEq Pid] {S : Setup} {E : Set ℤ} {w : Watched Pid} {log : List (Sight Pid)}

omit [DecidableEq Pid] in
/-- A step that nothing is seen of. -/
theorem Keeps.unseen (h : Keeps S E w log) {s : State Pid} {sub : Direction → Option Pid}
    (hflying : Flying s) (hwritten : Written S s) (howned : Owned ⟨s, sub⟩)
    (hexplains : ∀ p ph, Explains S E w p ph → Explains S E ⟨s, sub⟩ p ph) :
    Keeps S E ⟨s, sub⟩ (log ++ []) := by
  rw [List.append_nil]
  refine ⟨hflying, hwritten, howned, fun p => ?_, h.seen⟩
  obtain ⟨ph, hfollows, hph⟩ := h.follows p
  exact ⟨ph, hfollows, hexplains p ph hph⟩

/-- A sight of process `p`. -/
theorem Keeps.seeing (h : Keeps S E w log) {s : State Pid} {x : Sight Pid} {p : Pid}
    (hx : x.pid = some p) {sub : Direction → Option Pid} (hflying : Flying s)
    (hwritten : Written S s) (howned : Owned ⟨s, sub⟩)
    (hself : ∀ ph, Explains S E w p ph → ∃ ph', Next S E p ph x ph' ∧ Explains S E ⟨s, sub⟩ p ph')
    (hothers : ∀ q ph, q ≠ p → Explains S E w q ph → Explains S E ⟨s, sub⟩ q ph) :
    Keeps S E ⟨s, sub⟩ (log ++ [x]) := by
  refine ⟨hflying, hwritten, howned, fun q => ?_, fun y hy => ?_⟩
  · obtain ⟨ph, hfollows, hph⟩ := h.follows q
    by_cases hq : q = p
    · subst hq
      obtain ⟨ph', hnext, hph'⟩ := hself ph hph
      exact ⟨ph', .own hfollows hnext, hph'⟩
    · refine ⟨ph, .other hfollows fun heq => hq ?_, hothers q ph hq hph⟩
      exact Option.some.inj (heq.symm.trans hx)
  · rcases List.mem_append.1 hy with hy | hy
    · exact h.seen y hy
    · cases List.mem_singleton.1 hy
      rw [hx]
      rfl

/-- A process outside the calls moves to a place outside the calls. -/
theorem Keeps.moves (h : Keeps S E w log) {s : State Pid} {p : Pid} {x : Proc}
    (hflying : Flying s) (hwritten : Written S s) (hchan : s.chan = w.driver.chan)
    (hproc : s.proc = Function.update w.driver.proc p x)
    (hp : ∀ c o pc, w.driver.proc p ≠ .call c o pc) (hx : ∀ c o pc, x ≠ .call c o pc) :
    Keeps S E ⟨s, w.submitter⟩ (log ++ []) := by
  refine h.unseen hflying hwritten (fun d hflight => ?_) fun q ph hph => ?_
  · obtain ⟨q, c, o, pc, hsub, hq, hd, hpc⟩ := h.owned d (by rw [← hchan]; exact hflight)
    have hne : q ≠ p := by
      rintro rfl
      exact hp c o pc hq
    refine ⟨q, c, o, pc, hsub, ?_, hd, hpc⟩
    change s.proc q = _
    rw [hproc, Function.update_of_ne hne]
    exact hq
  · by_cases hq : q = p
    · subst hq
      rw [explains_idle hph hp]
      refine explains_of_idle fun c o pc hcall => ?_
      change s.proc q = _ at hcall
      rw [hproc, Function.update_self] at hcall
      exact hx c o pc hcall
    · refine hph.stay ?_ fun c o pc _ _ => ⟨rfl, ?_⟩
      · change s.proc q = _
        rw [hproc, Function.update_of_ne hq]
      · change (s.chan c.dir).inFlight = _ ∧ (s.chan c.dir).status = _ ∧ (s.chan c.dir).bytes = _
        rw [hchan]
        exact ⟨rfl, rfl, rfl⟩

/-- A statement of a call. -/
theorem Keeps.call (h : Keeps S E w log) {p : Pid} {c : Call} {o : Fin 8 → ℤ} {pc : Pc} {e : Event}
    {f : Frame Pid} (hp : w.driver.proc p = .call c o pc)
    (hcall : callStep S w.driver.device p c ⟨w.driver.chan c.dir, w.driver.kBuffer, o, pc⟩ e = some f)
    (habandon : e = .run → ∀ ret, pc = .clearBusy .signal ret →
      (w.driver.chan c.dir).inFlight = false)
    (herr : ∀ err, e = .submit err → err ≠ 0 → err ∈ E) (hflying : Flying (w.driver.setFrame p c f))
    (hwritten : Written S (w.driver.setFrame p c f)) :
    Keeps S E ⟨w.driver.setFrame p c f, w.submitters (.proc p e)⟩ (log ++ []) := by
  have hst := statement_of_callStep hcall
  refine h.unseen hflying hwritten (fun d hflight => ?_) fun q ph hph => ?_
  · change ((w.driver.setFrame p c f).chan d).inFlight = true at hflight
    change ∃ q c' o' pc', w.submitters (.proc p e) d = some q ∧
      (w.driver.setFrame p c f).proc q = .call c' o' pc' ∧ c'.dir = d ∧ Pc.awaits pc' = true
    by_cases hsubmit : e = .submit 0 ∧ d = c.dir
    · obtain ⟨rfl, rfl⟩ := hsubmit
      refine ⟨p, c, f.o, f.pc, submitters_self hp, proc_setFrame _ _ _ _, rfl, ?_⟩
      rw [(submits_of_callStep hcall).2]
      rfl
    · rw [submitters_same hp (not_and_or.1 hsubmit)]
      by_cases hd : d = c.dir
      · subst hd
        rw [chan_setFrame, flight_of_statement hst fun he => hsubmit ⟨he, rfl⟩] at hflight
        obtain ⟨q, c', o', pc', hsub, hq, hd', hpc'⟩ := h.owned c.dir hflight
        by_cases hqp : q = p
        · -- its own URB, which it does not abandon
          subst hqp
          cases hq.symm.trans hp
          have hwaits := awaits_callStep hpc' (h.flying.busy c.dir hflight)
            (fun he ret hpc => by cases (habandon he ret hpc).symm.trans hflight) hcall
          exact ⟨q, c, f.o, f.pc, hsub, proc_setFrame _ _ _ _, rfl, hwaits⟩
        · exact ⟨q, c', o', pc', hsub, (setProc_of_ne hqp _).trans hq, hd', hpc'⟩
      · rw [chan_setFrame_of_ne hd] at hflight
        obtain ⟨q, c', o', pc', hsub, hq, hd', hpc'⟩ := h.owned d hflight
        have hqp : q ≠ p := by
          rintro rfl
          cases hq.symm.trans hp
          exact hd hd'.symm
        exact ⟨q, c', o', pc', hsub, (setProc_of_ne hqp _).trans hq, hd', hpc'⟩
  · by_cases hqp : q = p
    · subst hqp
      refine (explains_call (proc_setFrame w.driver q c f)).2 ?_
      change Fits S E ((w.driver.setFrame q c f).chan c.dir) _ q c ph f.pc
      rw [chan_setFrame]
      refine fits_callStep ((explains_call hp).1 hph) (fun a hc => ?_) (h.flying.busy c.dir) habandon
        (fun he => ?_) (fun he => submitters_same hp (.inl he)) herr hcall
      · subst hc
        exact h.written q a o pc hp
      · subst he
        exact submitters_self hp
    · refine hph.stay (setProc_of_ne hqp _) fun c' o' pc' hq hpc' => ?_
      change w.submitters (.proc p e) c'.dir = _ ∧ ((w.driver.setFrame p c f).chan c'.dir).inFlight = _ ∧
        ((w.driver.setFrame p c f).chan c'.dir).status = _ ∧
        ((w.driver.setFrame p c f).chan c'.dir).bytes = _
      by_cases hd : c'.dir = c.dir
      · -- `q` has the mutex, so `p` does not
        have hpc : pc.holds = false := by
          by_contra hpc
          exact hqp (h.flying.locked.unique hp (by simpa using hpc) hq hpc' hd)
        have hsubmit : e ≠ .submit 0 := by
          rintro rfl
          rw [show pc = .submit from (submits_of_callStep hcall).1] at hpc
          cases hpc
        rw [hd, chan_setFrame]
        exact ⟨submitters_same hp (.inl hsubmit), view_of_statement hst hpc⟩
      · rw [chan_setFrame_of_ne hd]
        exact ⟨submitters_same hp (.inr hd), rfl, rfl, rfl⟩

/-- A URB completes. -/
theorem Keeps.complete (h : Keeps S E w log) {d : Direction} {status : ℤ} {bytes : Memory UInt8}
    (hbytes : d = .output → bytes = (w.driver.chan d).bytes)
    (hflight : (w.driver.chan d).inFlight = true)
    (hflying : Flying (w.driver.setChan d ((w.driver.chan d).complete status bytes)))
    (hwritten : Written S (w.driver.setChan d ((w.driver.chan d).complete status bytes))) :
    Keeps S E ⟨w.driver.setChan d ((w.driver.chan d).complete status bytes), w.submitter⟩
      (log ++ [.transferred (w.submitter d) d status (bytes.load 0 8)]) := by
  obtain ⟨p, c, o, pc, hsub, hp, rfl, hpc⟩ := h.owned d hflight
  rw [show w.submitter c.dir = some p from hsub]
  refine h.seeing rfl hflying hwritten (fun d' hflight' => ?_) (fun ph hph => ?_)
    fun q ph hqp hph => ?_
  · -- a URB that is in flight afterwards is that of the other direction
    have hd : d' ≠ c.dir := by
      rintro rfl
      change ((w.driver.setChan c.dir _).chan c.dir).inFlight = true at hflight'
      rw [setChan_self] at hflight'
      cases hflight'
    change ((w.driver.setChan c.dir _).chan d').inFlight = true at hflight'
    rw [setChan_of_ne hd] at hflight'
    exact h.owned d' hflight'
  · have hfits := (explains_call hp).1 hph
    have hawaited : Awaited S (w.driver.chan c.dir) (w.submitter c.dir) p c ph := by
      cases pc with
      | doneTest | doneWait => exact hfits
      | clearBusy site ret =>
        cases site with
        | signal => exact hfits.1
        | submit | status => cases hpc
      | _ => cases hpc
    rw [Awaited, if_pos hflight] at hawaited
    obtain ⟨rfl, -, hcarries⟩ := hawaited
    have hown : Carries S (bytes.load 0 8) c := by
      cases c with
      | write a =>
        rw [hbytes rfl]
        exact hcarries
      | read a => exact hcarries
    refine ⟨.transferred c status (bytes.load 0 8), .transferred hown, ?_⟩
    have hp' : (w.driver.setChan c.dir ((w.driver.chan c.dir).complete status bytes)).proc p =
        .call c o pc := hp
    refine (explains_call (w := ⟨_, w.submitter⟩) hp').2 ?_
    change Fits S E ((w.driver.setChan c.dir _).chan c.dir) _ p c _ pc
    rw [setChan_self]
    cases pc with
    | doneTest | doneWait => exact rfl
    | clearBusy site ret =>
      cases site with
      | signal => exact ⟨rfl, hfits.2⟩
      | submit | status => cases hpc
    | _ => cases hpc
  · refine hph.stay rfl fun c' o' pc' hq hpc' => ⟨rfl, ?_⟩
    have hd : c'.dir ≠ c.dir := fun hd =>
      hqp (h.flying.locked.unique hp (Pc.holds_of_awaits hpc) hq hpc' hd)
    change ((w.driver.setChan c.dir _).chan c'.dir).inFlight = _ ∧
      ((w.driver.setChan c.dir _).chan c'.dir).status = _ ∧
      ((w.driver.setChan c.dir _).chan c'.dir).bytes = _
    rw [setChan_of_ne hd]
    exact ⟨rfl, rfl, rfl⟩

/-- A statement of `example_release`. -/
theorem Keeps.release (h : Keeps S E w log) {p : Pid} {pc : ReleasePc} {s : State Pid}
    (hp : w.driver.proc p = .release pc) (hst : ReleaseStatement w.driver p pc s)
    (hflying : Flying s) (hwritten : Written S s) : Keeps S E ⟨s, w.submitter⟩ (log ++ []) := by
  obtain ⟨-, -, ⟨pc', hproc⟩, -⟩ := hst.frame
  have hout : ∀ c o pc', w.driver.proc p ≠ .call c o pc' := fun c o pc' hcall => by
    cases hcall.symm.trans hp
  rcases chan_of_releaseStatement hst with hchan | ⟨hpc, hless⟩
  · exact h.moves hflying hwritten hchan hproc hout fun _ _ _ heq => by cases heq
  · -- nobody is inside a call
    have hnone : ∀ q c o pc', w.driver.proc q ≠ .call c o pc' := fun q c o pc' =>
      h.flying.files.no_call hp hpc
    refine h.unseen hflying hwritten (fun d hflight => ?_) fun q ph hph => ?_
    · obtain ⟨q, c, o, pc', -, hq, -⟩ := h.owned d (hless d hflight)
      exact absurd hq (hnone q c o pc')
    · rw [explains_idle hph (hnone q)]
      refine explains_of_idle fun c o pc'' hcall => ?_
      change s.proc q = _ at hcall
      rw [hproc] at hcall
      rcases setProc_eq_call (s := w.driver) hcall with ⟨-, heq⟩ | ⟨-, hold⟩
      · cases heq
      · exact hnone q c o pc'' hold

/-- A process enters a call, or leaves one. -/
theorem Keeps.enters (h : Keeps S E w log) {p : Pid} {x : Proc} {y : Sight Pid} {s : State Pid}
    (hy : y.pid = some p) (hflying : Flying s) (hwritten : Written S s)
    (hchan : s.chan = w.driver.chan) (hproc : s.proc = Function.update w.driver.proc p x)
    (hout : ∀ c o pc, w.driver.proc p = .call c o pc → pc.holds = false)
    (hself : ∀ ph, Explains S E w p ph →
      ∃ ph', Next S E p ph y ph' ∧ Explains S E ⟨s, w.submitter⟩ p ph') :
    Keeps S E ⟨s, w.submitter⟩ (log ++ [y]) := by
  refine h.seeing hy hflying hwritten (fun d hflight => ?_) hself fun q ph hqp hph => ?_
  · obtain ⟨q, c, o, pc, hsub, hq, hd, hpc⟩ := h.owned d (by rw [← hchan]; exact hflight)
    have hqp : q ≠ p := by
      rintro rfl
      exact Bool.false_ne_true ((hout c o pc hq).symm.trans (Pc.holds_of_awaits hpc))
    refine ⟨q, c, o, pc, hsub, ?_, hd, hpc⟩
    change s.proc q = _
    rw [hproc, Function.update_of_ne hqp]
    exact hq
  · refine hph.stay ?_ fun c o pc _ _ => ⟨rfl, ?_⟩
    · change s.proc q = _
      rw [hproc, Function.update_of_ne hqp]
    · change (s.chan c.dir).inFlight = _ ∧ (s.chan c.dir).status = _ ∧ (s.chan c.dir).bytes = _
      rw [hchan]
      exact ⟨rfl, rfl, rfl⟩

theorem keeps_step {act : Act Pid} {w' : Watched Pid} {out : List (Sight Pid)} (h : Keeps S E w log)
    (habandon : NotAbandoned w.driver act)
    (herr : ∀ p err, act = .proc p (.submit err) → err ≠ 0 → err ∈ E)
    (hstep : (watched S Pid).step w act = some (w', out)) : Keeps S E w' (log ++ out) := by
  obtain ⟨⟨s, out₀⟩, hdriver, heq⟩ := Option.map_eq_some_iff.1 hstep
  cases heq
  have hflying := flying_step h.flying habandon hdriver
  have hwritten := written_step h.written h.flying.locked hdriver
  cases fired_of_step hdriver with
  | refuses | opens => exact h.unseen hflying hwritten h.owned fun _ _ hph => hph
  | starts p c hp hopen =>
    refine h.enters rfl hflying hwritten rfl rfl (fun _ _ _ hcall => by cases hcall.symm.trans hp)
      fun ph hph => ?_
    rw [explains_idle hph fun _ _ _ hcall => by cases hcall.symm.trans hp]
    refine ⟨.called c, .called, (explains_call (setProc_self _ p _)).2 ?_⟩
    exact (rfl : Phase.called c = .called c)
  | startsRelease p hp hopen hin =>
    exact h.moves (x := .release .lock) hflying hwritten rfl rfl
      (fun _ _ _ hcall => by cases hcall.symm.trans hp) fun _ _ _ heq => by cases heq
  | calls p c o pc e f hp hcall =>
    have hseen : w.seen (w.driver.setFrame p c f) (.proc p e) = [] := by
      cases e with
      | submit | signal | timeout => rfl
      | run =>
        simp only [Watched.seen, hp]
        cases pc with
        | ret => cases hcall
        | _ => rfl
    rw [hseen]
    exact h.call hp hcall (fun he ret hpc => habandon p c o ret (by rw [he]) (by rw [hp, hpc]))
      (fun err he => herr p err (by rw [he])) hflying hwritten
  | returns p c o ret user advance hp =>
    have hseen : ∀ t, w.seen t (.proc p .run) = [.returned p c ret user] := fun t => by
      simp only [Watched.seen, hp]
    rw [hseen]
    refine h.enters (x := .user) rfl hflying hwritten rfl rfl
      (fun _ _ _ hcall => by cases hcall.symm.trans hp; rfl) fun ph hph => ?_
    obtain ⟨hcall, hanswers⟩ := (explains_call hp).1 hph
    refine ⟨.idle, .returned hcall hanswers, explains_of_idle fun c' o' pc' hcall' => ?_⟩
    cases (setProc_self _ p .user).symm.trans hcall'
  | releases p pc e t hp hst =>
    have hseen : w.seen s (.proc p e) = [] ∧ w.submitters (.proc p e) = w.submitter := by
      cases e <;> simp only [Watched.seen, Watched.submitters, hp, and_self]
    rw [hseen.1, hseen.2]
    exact h.release hp hst hflying hwritten
  | released p ret hp =>
    have hseen : ∀ t, w.seen t (.proc p .run) = [] := fun t => by simp only [Watched.seen, hp]
    rw [hseen]
    exact h.moves (x := .user) hflying hwritten rfl rfl
      (fun _ _ _ hcall => by cases hcall.symm.trans hp) fun _ _ _ heq => by cases heq
  | completes d status data bytes hbytes hflight =>
    have hseen : w.seen (w.driver.setChan d ((w.driver.chan d).complete status bytes))
        (.complete d status data) = [.transferred (w.submitter d) d status (bytes.load 0 8)] := by
      simp only [Watched.seen, Function.update_self, Channel.complete]
    rw [hseen]
    refine h.complete (fun hd => ?_) hflight hflying hwritten
    subst hd
    exact hbytes
  | unplugs stmt rest t hplan =>
    -- the board stays plugged
    rw [h.flying.plugged] at hplan
    cases hplan

omit [DecidableEq Pid] in
theorem keeps_start (S : Setup) (E : Set ℤ) (heap : Direction → Memory UInt8) : Keeps S E (start Pid heap) [] where
  flying := flying_init heap
  written _ _ _ _ hp := by cases hp
  owned _ hflight := by cases hflight
  follows _ := ⟨.idle, .nil, rfl⟩
  seen _ hx := by cases hx

omit [DecidableEq Pid] in
/-- The history up to a sight of the process. -/
theorem Follows.before {p : Pid} {ph : Phase} {x : Sight Pid} (h : Follows S E p log ph)
    {before after : List (Sight Pid)} (hlog : log = before ++ x :: after) (hx : x.pid = some p) :
    ∃ ph₀ ph₁, Follows S E p before ph₀ ∧ Next S E p ph₀ x ph₁ := by
  induction h generalizing before after with
  | nil => simp at hlog
  | @own log ph ph' y h hy ih =>
    rcases List.eq_nil_or_concat after with rfl | ⟨after, z, rfl⟩
    · obtain ⟨rfl, hyx⟩ := List.append_inj' hlog rfl
      cases hyx
      exact ⟨ph, ph', h, hy⟩
    · rw [List.concat_eq_append, ← List.cons_append, ← List.append_assoc] at hlog
      exact ih (List.append_inj_left' hlog rfl)
  | @other log ph y h hy ih =>
    rcases List.eq_nil_or_concat after with rfl | ⟨after, z, rfl⟩
    · obtain ⟨-, hyx⟩ := List.append_inj' hlog rfl
      cases hyx
      exact absurd hx hy
    · rw [List.concat_eq_append, ← List.cons_append, ← List.append_assoc] at hlog
      exact ih (List.append_inj_left' hlog rfl)

omit [DecidableEq Pid] in
/-- A call that has had its transfer: this is what has been seen of the process last. -/
theorem Follows.transfer {p : Pid} {c : Call} {status : ℤ} {report : List UInt8}
    (h : Follows S E p log (.transferred c status report)) :
    ∃ before after, log = before ++ .transferred (some p) c.dir status report :: after ∧
      ∀ x ∈ after, x.pid ≠ some p := by
  generalize hph : Phase.transferred c status report = ph at h
  induction h with
  | nil => cases hph
  | @own log ph ph' x h hx ih =>
    cases hx with
    | called | returned => cases hph
    | transferred =>
      cases hph
      exact ⟨log, [], rfl, fun x hx => absurd hx List.not_mem_nil⟩
  | @other log ph y h hy ih =>
    obtain ⟨before, after, rfl, hafter⟩ := ih hph
    refine ⟨before, after ++ [y], by rw [List.append_assoc, List.cons_append], fun x hx => ?_⟩
    rcases List.mem_append.1 hx with hx | hx
    · exact hafter x hx
    · rwa [List.mem_singleton.1 hx]

end Update

/-! ### An example -/

end IldDrivers.ExampleVII.Board
