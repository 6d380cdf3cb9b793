import IldDrivers.Lib.Transition
import Mathlib.Data.List.Count
import Mathlib.Logic.Function.Iterate
import Mathlib.Tactic

/-!
# Bottom halves (`example-V-03` to `example-V-06`)

At each interrupt on one GPIO, `example-V-03` writes 1 and 0 in turn to another, in the handler
itself. The three programs after it leave this to a bottom half: a tasklet (`example-V-04`), a work
of the shared workqueue (`example-V-05`), the thread of the interrupt (`example-V-06`). The handler
that remains, the top half, schedules the bottom half; one that is already pending is not scheduled
a second time. The kernel clears the mark before it calls the function, so that an interrupt during
the call schedules another one, and it does not run the function twice at the same time.

* `ExampleV03.handler`: the handler of `example-V-03`;
* `Deferred.machine`: interrupts, the kernel that starts the bottom half, and the statements of the
  bottom half, in any order;
* `Deferred.Settled`: an invariant that relates the line to the handler of `example-V-03`;
* `Deferred.toggles_eq_scheduled`: the interrupts that found a bottom half pending are lost, the
  line is what the others make it.
-/

namespace IldDrivers

/-- `EXAMPLE_GPIO_OUT`, and the static variable `value` of the function that writes it. -/
structure GpioOut where
  level : ℤ
  value : ℤ

/-- After `gpio_direction_output(EXAMPLE_GPIO_OUT, 0)`. -/
def GpioOut.init : GpioOut := ⟨0, 1⟩

/-- `gpio_set_value(EXAMPLE_GPIO_OUT, value)`. -/
def GpioOut.setValue (o : GpioOut) : GpioOut := { o with level := if o.value ≠ 0 then 1 else 0 }

/-- `value = 1 - value`. -/
def GpioOut.flip (o : GpioOut) : GpioOut := { o with value := 1 - o.value }

/-- `example_handler` of `example-V-03`. -/
def ExampleV03.handler (o : GpioOut) : GpioOut := o.setValue.flip

inductive IrqReturn
  | handled
  | wakeThread
  deriving DecidableEq

namespace Deferred

/-! ### The three programs -/

/-- `tasklet_schedule`, `schedule_work` and the wake-up of an interrupt's thread: the mark that the
bottom half is pending is set, or it was set before. -/
def schedule (_pending : Bool) : Bool := true

/-- `example_top_half` of `example-V-04`. -/
def V04.topHalf (pending : Bool) : Bool × IrqReturn := (schedule pending, .handled)

/-- `example_top_half` of `example-V-05`. -/
def V05.topHalf (pending : Bool) : Bool × IrqReturn := (schedule pending, .handled)

/-- `example_top_half` of `example-V-06`. -/
def V06.topHalf (pending : Bool) : Bool × IrqReturn := (pending, .wakeThread)

inductive Version
  | v04
  | v05
  | v06
  deriving DecidableEq

def Version.topHalf : Version → Bool → Bool × IrqReturn
  | .v04 => V04.topHalf
  | .v05 => V05.topHalf
  | .v06 => V06.topHalf

/-- What the kernel makes of an interrupt: it calls the top half and wakes the thread if the top
half says so. -/
def Version.takeInterrupt (v : Version) (pending : Bool) : Bool :=
  match v.topHalf pending with
  | (p, .handled) => p
  | (p, .wakeThread) => schedule p

/-! ### The machine -/

/-- The statement that a running `example_bottom_half` is about to execute. -/
inductive Stmt
  | setValue
  | flip
  deriving DecidableEq

structure State where
  out : GpioOut
  /-- Scheduled, and not yet started. -/
  pending : Bool
  running : Option Stmt

def init : State := ⟨GpioOut.init, false, none⟩

inductive Action
  | interrupt
  /-- The kernel calls the bottom half. -/
  | start
  /-- The bottom half executes a statement. -/
  | statement
  deriving DecidableEq

inductive Event
  /-- An interrupt, with the mark that its top half found. -/
  | interrupt (pending : Bool)
  /-- `EXAMPLE_GPIO_OUT` is written. -/
  | toggle
  deriving DecidableEq

def step (v : Version) (s : State) : Action → Option (State × List Event)
  | .interrupt => some ({ s with pending := v.takeInterrupt s.pending }, [.interrupt s.pending])
  | .start =>
      if s.pending ∧ s.running = none then
        some ({ s with pending := false, running := some .setValue }, [])
      else none
  | .statement =>
      match s.running with
      | none => none
      | some .setValue => some ({ s with out := s.out.setValue, running := some .flip }, [.toggle])
      | some .flip => some ({ s with out := s.out.flip, running := none }, [])

def machine (v : Version) : System State Action Event := ⟨step v⟩

/-- The interrupts of a history. -/
def interrupts (log : List Event) : ℕ := log.count (.interrupt false) + log.count (.interrupt true)

/-- The interrupts that found no bottom half pending. -/
def scheduled (log : List Event) : ℕ := log.count (.interrupt false)

/-- The writes to `EXAMPLE_GPIO_OUT`. -/
def toggles (log : List Event) : ℕ := log.count .toggle

/-! ### The invariant -/

theorem takeInterrupt_eq (v : Version) (pending : Bool) : v.takeInterrupt pending = true := by
  cases v with
  | v04 => rfl
  | v05 => rfl
  | v06 => rfl

/-- Calls of the bottom half that have not yet written the line. -/
def State.owed (s : State) : ℕ := s.pending.toNat + if s.running = some .setValue then 1 else 0

/-- The line and `value` as the running call leaves them, when it has written the line. -/
def State.settledOut (s : State) : GpioOut := if s.running = some .flip then s.out.flip else s.out

/-- Each interrupt that scheduled the bottom half has been followed by a toggle or will be, and the
line is what the handler of `example-V-03` makes it at as many interrupts as there were toggles. -/
structure Settled (s : State) (log : List Event) : Prop where
  owed : scheduled log = toggles log + s.owed
  out : s.settledOut = ExampleV03.handler^[toggles log] GpioOut.init

theorem settled_init : Settled init [] := ⟨rfl, rfl⟩

theorem settled_step {v : Version} {s s' : State} {log out : List Event} {a : Action}
    (h : Settled s log) (hstep : step v s a = some (s', out)) : Settled s' (log ++ out) := by
  obtain ⟨howed, hout⟩ := h
  obtain ⟨line, pending, running⟩ := s
  cases a with
  | interrupt =>
    simp only [step, takeInterrupt_eq, Option.some.injEq, Prod.mk.injEq] at hstep
    obtain ⟨rfl, rfl⟩ := hstep
    -- only an interrupt that finds the mark clear adds to what is owed
    refine ⟨?_, by simpa [toggles, State.settledOut] using hout⟩
    simp only [scheduled, toggles, State.owed, List.count_append] at howed ⊢
    cases pending <;> simp at howed ⊢ <;> omega
  | start =>
    simp only [step] at hstep
    split_ifs at hstep with hidle
    simp only [Option.some.injEq, Prod.mk.injEq] at hstep
    obtain ⟨rfl, rfl⟩ := hstep
    obtain ⟨rfl, rfl⟩ := hidle
    exact ⟨by simpa [State.owed] using howed, by simpa [State.settledOut] using hout⟩
  | statement =>
    cases running with
    | none => cases hstep
    | some stmt =>
      cases stmt with
      | setValue =>
        simp only [step, Option.some.injEq, Prod.mk.injEq] at hstep
        obtain ⟨rfl, rfl⟩ := hstep
        have htoggles : toggles (log ++ [.toggle]) = toggles log + 1 := by simp [toggles]
        refine ⟨?_, ?_⟩
        · rw [htoggles]
          simp only [State.owed, scheduled, List.count_append] at howed ⊢
          simp at howed ⊢
          omega
        · -- the line and, in advance, `value` are those of one more interrupt
          rw [htoggles, Function.iterate_succ_apply', ← hout]
          rfl
      | flip =>
        simp only [step, Option.some.injEq, Prod.mk.injEq] at hstep
        obtain ⟨rfl, rfl⟩ := hstep
        exact ⟨by simpa [State.owed] using howed, by simpa [State.settledOut] using hout⟩

theorem settled_of_exec {v : Version} {s : State} {log : List Event} {as : List Action}
    (hrun : (machine v).exec init as = some (s, log)) : Settled s log :=
  System.exec_induction (fun _ _ _ _ _ => settled_step) settled_init hrun

/-- **What the bottom halves make of the interrupts**: whenever no bottom half is pending or
running, the line has been toggled once for each interrupt that found no bottom half pending, and
it is at the level, with the `value`, that the handler of `example-V-03` gives for that many
interrupts. These are all interrupts exactly when none found a bottom half pending. -/
theorem toggles_eq_scheduled (v : Version) {s : State} {log : List Event} {as : List Action}
    (hrun : (machine v).exec init as = some (s, log)) (hpending : s.pending = false)
    (hrunning : s.running = none) :
    toggles log = scheduled log ∧
      s.out = ExampleV03.handler^[scheduled log] GpioOut.init ∧
      toggles log ≤ interrupts log ∧
      (toggles log = interrupts log ↔ Event.interrupt true ∉ log) := by
  obtain ⟨howed, hout⟩ := settled_of_exec hrun
  have heq : toggles log = scheduled log := by simp [howed, State.owed, hpending, hrunning]
  refine ⟨heq, ?_, ?_, ?_⟩
  · rw [← heq, ← hout, State.settledOut, hrunning]
    rfl
  · rw [heq]
    exact Nat.le_add_right _ _
  · rw [heq, ← List.count_eq_zero]
    unfold scheduled interrupts
    omega

/-- Two interrupts, the second while the bottom half of the first is running. -/
theorem toggles_eq_scheduled_twice :
    ∃ s log, (machine .v06).exec init
        [.interrupt, .start, .interrupt, .statement, .statement, .start, .statement, .statement] =
          some (s, log) ∧
      toggles log = 2 ∧ interrupts log = 2 ∧ s.out = ExampleV03.handler^[2] GpioOut.init := by
  obtain ⟨⟨s, log⟩, hrun, hval⟩ := Option.map_eq_some_iff.1
    (show ((machine .v06).exec init
        [.interrupt, .start, .interrupt, .statement, .statement, .start, .statement,
          .statement]).map (fun r => (r.1.pending, r.1.running, scheduled r.2, interrupts r.2)) =
      some (false, none, 2, 2) by decide +kernel)
  simp only [Prod.mk.injEq] at hval
  obtain ⟨hpending, hrunning, hscheduled, hinterrupts⟩ := hval
  obtain ⟨htoggles, hout, -⟩ := toggles_eq_scheduled .v06 hrun hpending hrunning
  exact ⟨s, log, hrun, htoggles.trans hscheduled, hinterrupts, hscheduled ▸ hout⟩

/-- Of two interrupts before the bottom half starts, the second is lost: the line ends at 1, that
of `example-V-03` at 0. -/
theorem second_interrupt_lost :
    ((machine .v04).exec init [.interrupt, .interrupt, .start, .statement, .statement]).map
        (fun r => (r.1.pending, r.1.running, toggles r.2, interrupts r.2, r.1.out.level)) =
      some (false, none, 1, 2, 1) ∧
    (ExampleV03.handler^[2] GpioOut.init).level = 0 := by
  decide +kernel

end Deferred

end IldDrivers
