import Mathlib.Tactic.Cases

/-!
# Sleeping until a condition holds

The protocol by which a process sleeps on a wait queue until a condition on shared data holds,
while other processes make it hold and then wake the queue. A process first tests the condition;
if it does not hold it enqueues itself, tests again, and only then gives up the processor. A wake-up
of the queue reaches every process between its enqueueing and its return to the first test.

The point of the protocol is that a process that is *parked*, asleep or bound to sleep without
another test, last saw the condition false when no wake-up had reached it since:
`WaitPoint.advance_parked` and `WaitPoint.wake_not_parked` are the two halves of "no lost wake-up".
-/

/-- Where a process stands in a wait. -/
inductive WaitPoint
  /-- The test made before enqueueing. -/
  | test
  /-- About to enqueue and to leave the runnable state. -/
  | enqueue
  /-- Enqueued, about to test again; `woken` when a wake-up has made it runnable since. -/
  | recheck (woken : Bool)
  /-- The second test failed: about to give up the processor. -/
  | schedule (woken : Bool)
  | asleep
  deriving DecidableEq

/-- What a process does next in a wait. -/
inductive WaitMove
  | goto (w : WaitPoint)
  /-- The wait is over, and the condition was seen to hold. -/
  | finish
  /-- The wait is over because of a signal. -/
  | interrupted
  deriving DecidableEq

namespace WaitPoint

/-- The next step of a process that is not asleep, `cond` being the present value of the
condition. -/
def advance (cond : Bool) : WaitPoint → Option WaitMove
  | test => some (if cond then .finish else .goto enqueue)
  | enqueue => some (.goto (recheck false))
  | recheck woken => some (if cond then .finish else .goto (schedule woken))
  | schedule true => some (.goto enqueue)
  | schedule false => some (.goto asleep)
  | asleep => none

/-- What a signal does: it wakes a sleeping process, and ends the wait of one whose second test
fails. -/
def interrupt (cond : Bool) : WaitPoint → Option WaitMove
  | recheck _ => if cond then none else some .interrupted
  | asleep => some (.goto enqueue)
  | _ => none

/-- What a wake-up of the queue does to a process on it. -/
def wake : WaitPoint → WaitPoint
  | recheck _ => recheck true
  | schedule _ => schedule true
  | asleep => enqueue
  | w => w

/-- Asleep, or bound to sleep without another test. -/
def Parked (w : WaitPoint) : Prop := w = schedule false ∨ w = asleep

instance (w : WaitPoint) : Decidable w.Parked := inferInstanceAs (Decidable (_ ∨ _))

/-- A wake-up leaves nobody parked. -/
theorem wake_not_parked (w : WaitPoint) : ¬ w.wake.Parked := by
  cases w <;> simp [wake, Parked]

/-- A process becomes parked only by a test that fails. -/
theorem advance_parked {cond : Bool} {w w' : WaitPoint}
    (h : w.advance cond = some (.goto w')) (hw' : w'.Parked) : w.Parked ∨ cond = false := by
  cases w with
  | test => cases cond <;> simp_all [advance]
  | enqueue => cases h; simp [Parked] at hw'
  | recheck woken => cases cond <;> simp_all [advance]
  | schedule woken =>
    cases woken with
    | true => cases h; simp [Parked] at hw'
    | false => exact .inl (.inl rfl)
  | asleep => cases h

/-- No wait ends by itself because of a signal. -/
theorem advance_ne_interrupted (w : WaitPoint) (cond : Bool) :
    w.advance cond ≠ some .interrupted := by
  cases w with
  | test | recheck => cases cond <;> simp [advance]
  | enqueue | asleep => simp [advance]
  | schedule woken => cases woken <;> simp [advance]

/-- A signal parks nobody. -/
theorem interrupt_not_parked {cond : Bool} {w w' : WaitPoint}
    (h : w.interrupt cond = some (.goto w')) : ¬ w'.Parked := by
  cases w <;> simp_all [interrupt, Parked]
  subst h
  simp

end WaitPoint
