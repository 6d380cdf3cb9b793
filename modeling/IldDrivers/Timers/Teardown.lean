import IldDrivers.Lib.Transition
import Mathlib.Tactic

/-!
# The end of a periodic timer (`example-V-11`)

A timer writes to a buffer once a second and arms itself again. When the module is removed,
`example_exit` deletes the timer and frees the buffer. `timer_delete` takes away a timer that is
pending, but does not wait for a callback that runs on another processor: this one arms the timer
again after it has been deleted, and goes on writing to a buffer that has been freed.

* `step`: the statements of the callback and of `example_exit`, in any order;
* `DeletesIdle`: `timer_delete` is executed while no callback is running;
* `Alive`: the timer has survived `timer_delete`;
* `torn_down_iff`: when the timer is dead once the module has been removed.

`example_init` has armed the timer. The processor on which the callback runs executes one callback
at a time, so that a timer armed by it expires when it has come to its end.
-/

namespace IldDrivers.ExampleV11

/-! ### The program -/

/-- The statement that `example_timer_function` has come to. -/
inductive Callback
  | idle
  | write
  | rearm
  deriving DecidableEq

/-- What `example_buffer` points to. -/
inductive Buffer
  | valid
  | freed
  | null
  deriving DecidableEq

/-- The statement that `example_exit` has come to. -/
inductive ExitPc
  | timerDelete
  | clearReserved
  | free
  | setNull
  | deregister
  | ret
  | done
  deriving DecidableEq

structure State where
  /-- The timer is pending. -/
  pending : Bool
  callback : Callback
  buffer : Buffer
  exit : ExitPc
  deriving DecidableEq

inductive Act
  /-- The timer expires. -/
  | expire
  /-- A statement of the callback. -/
  | callback
  /-- A statement of `example_exit`. -/
  | exit
  deriving DecidableEq

inductive Event
  | wrote (buffer : Buffer)
  /-- `example_exit` returns while the timer is pending, or not. -/
  | returned (pending : Bool)
  deriving DecidableEq

/-- A statement of `example_timer_function`. -/
def exampleTimerFunction (s : State) : Option (State × List Event) :=
  match s.callback with
  | .idle => none
  | .write => some ({ s with callback := .rearm }, [.wrote s.buffer])
  | .rearm => some ({ s with callback := .idle, pending := true }, [])

/-- A statement of `example_exit`. -/
def exampleExit (s : State) : Option (State × List Event) :=
  match s.exit with
  | .timerDelete => some ({ s with pending := false, exit := .clearReserved }, [])
  | .clearReserved => some ({ s with exit := .free }, [])
  | .free => some ({ s with buffer := .freed, exit := .setNull }, [])
  | .setNull => some ({ s with buffer := .null, exit := .deregister }, [])
  | .deregister => some ({ s with exit := .ret }, [])
  | .ret => some ({ s with exit := .done }, [.returned s.pending])
  | .done => none

def step (s : State) : Act → Option (State × List Event)
  | .expire =>
      if s.pending = true ∧ s.callback = .idle then
        some ({ s with pending := false, callback := .write }, [])
      else none
  | .callback => exampleTimerFunction s
  | .exit => exampleExit s

def system : System State Act Event := ⟨step⟩

/-- `example_init` has returned. -/
def init : State := ⟨true, .idle, .valid, .timerDelete⟩

/-! ### What is expected -/

/-- Nothing is written after the buffer has been freed, and the timer is not pending in the end. -/
def Event.Right : Event → Prop
  | .wrote buffer => buffer = .valid
  | .returned pending => pending = false

instance : ∀ e : Event, Decidable e.Right
  | .wrote buffer => inferInstanceAs (Decidable (buffer = .valid))
  | .returned pending => inferInstanceAs (Decidable (pending = false))

/-- When `timer_delete` is executed, no callback is running. -/
def DeletesIdle (s : State) (a : Act) : Prop :=
  a = .exit → s.exit = .timerDelete → s.callback = .idle

instance (s : State) (a : Act) : Decidable (DeletesIdle s a) :=
  inferInstanceAs (Decidable (_ → _ → _))

/-! ### A timer that is deleted while no callback is running -/

/-- Until it is deleted the timer finds its buffer, and afterwards it is dead. -/
structure Dead (s : State) : Prop where
  buffer : s.exit = .timerDelete → s.buffer = .valid
  pending : s.exit ≠ .timerDelete → s.pending = false
  callback : s.exit ≠ .timerDelete → s.callback = .idle

theorem dead_init : Dead init := ⟨fun _ => rfl, fun h => absurd rfl h, fun h => absurd rfl h⟩

/-- The callback runs only before the timer is deleted. -/
theorem Dead.before {s : State} (h : Dead s) (hrunning : s.callback ≠ .idle) :
    s.exit = .timerDelete := by
  by_contra hexit
  exact hrunning (h.callback hexit)

theorem dead_exit {s s' : State} {out : List Event} (h : Dead s)
    (hidle : s.exit = .timerDelete → s.callback = .idle)
    (hstep : exampleExit s = some (s', out)) : Dead s' ∧ ∀ e ∈ out, e.Right := by
  obtain ⟨pending, callback, buffer, exit⟩ := s
  obtain ⟨hbuffer, hpending, hcallback⟩ := h
  cases exit with
  | timerDelete =>
    cases hstep
    exact ⟨⟨(fun h => by cases h), fun _ => rfl, fun _ => hidle rfl⟩, fun _ he => by cases he⟩
  | clearReserved | free | setNull | deregister =>
    cases hstep
    have hpast := hpending fun h => by cases h
    have hover := hcallback fun h => by cases h
    exact ⟨⟨(fun h => by cases h), fun _ => hpast, fun _ => hover⟩, fun _ he => by cases he⟩
  | ret =>
    cases hstep
    have hpast := hpending fun h => by cases h
    have hover := hcallback fun h => by cases h
    refine ⟨⟨(fun h => by cases h), fun _ => hpast, fun _ => hover⟩, fun e he => ?_⟩
    rw [List.mem_singleton.1 he]
    exact hpast
  | done => cases hstep

theorem dead_step {s s' : State} {out : List Event} {a : Act} (h : Dead s) (ha : DeletesIdle s a)
    (hstep : step s a = some (s', out)) : Dead s' ∧ ∀ e ∈ out, e.Right := by
  cases a with
  | expire =>
    simp only [step] at hstep
    split_ifs at hstep with hready
    cases hstep
    have hbefore : s.exit = .timerDelete := by
      by_contra hexit
      have hpending := h.pending hexit
      rw [hready.1] at hpending
      cases hpending
    exact ⟨⟨h.buffer, fun hexit => absurd hbefore hexit, fun hexit => absurd hbefore hexit⟩,
      fun _ he => by cases he⟩
  | callback =>
    simp only [step, exampleTimerFunction] at hstep
    cases hcallback : s.callback with
    | idle =>
      rw [hcallback] at hstep
      cases hstep
    | write =>
      rw [hcallback] at hstep
      cases hstep
      have hbefore : s.exit = .timerDelete := h.before (by rw [hcallback]; decide)
      refine ⟨⟨h.buffer, fun hexit => absurd hbefore hexit, fun hexit => absurd hbefore hexit⟩,
        fun e he => ?_⟩
      rw [List.mem_singleton.1 he]
      exact h.buffer hbefore
    | rearm =>
      rw [hcallback] at hstep
      cases hstep
      have hbefore : s.exit = .timerDelete := h.before (by rw [hcallback]; decide)
      exact ⟨⟨h.buffer, fun hexit => absurd hbefore hexit, fun hexit => absurd hbefore hexit⟩,
        fun _ he => by cases he⟩
  | exit => exact dead_exit h (ha rfl) hstep

theorem right_of_along {acts : List Act} {s : State} {log : List Event}
    (halong : system.Along DeletesIdle init acts) (hrun : system.exec init acts = some (s, log)) :
    ∀ e ∈ log, e.Right := by
  have hinv := System.exec_induction_along (S := system) (P := DeletesIdle)
    (I := fun s log => Dead s ∧ ∀ e ∈ log, e.Right)
    (fun t before a t' out hI ha hstep => ?_) ⟨dead_init, fun _ he => by cases he⟩ halong hrun
  · exact hinv.2
  obtain ⟨hdead, hright⟩ := dead_step hI.1 ha hstep
  exact ⟨hdead, fun e he => (List.mem_append.1 he).elim (hI.2 e) (hright e)⟩

/-! ### A timer that survives -/

/-- What the buffer is when `example_exit` has come to a statement. -/
def ExitPc.buffer : ExitPc → Buffer
  | .timerDelete | .clearReserved | .free => .valid
  | .setNull => .freed
  | .deregister | .ret | .done => .null

/-- The timer has been deleted, and is pending or running all the same. -/
structure Alive (s : State) : Prop where
  deleted : s.exit ≠ .timerDelete
  armed : s.callback = .idle → s.pending = true

theorem buffer_step {s s' : State} {out : List Event} {a : Act} (h : s.buffer = s.exit.buffer)
    (hstep : step s a = some (s', out)) : s'.buffer = s'.exit.buffer := by
  obtain ⟨pending, callback, buffer, exit⟩ := s
  cases a with
  | expire =>
    simp only [step] at hstep
    split_ifs at hstep
    cases hstep
    exact h
  | callback =>
    cases callback with
    | idle => cases hstep
    | write | rearm =>
      cases hstep
      exact h
  | exit =>
    cases exit with
    | timerDelete | clearReserved | deregister | ret =>
      cases hstep
      exact h
    | free | setNull =>
      cases hstep
      rfl
    | done => cases hstep

theorem alive_step {s s' : State} {out : List Event} {a : Act} (h : Alive s)
    (hstep : step s a = some (s', out)) : Alive s' := by
  obtain ⟨pending, callback, buffer, exit⟩ := s
  obtain ⟨hdeleted, harmed⟩ := h
  cases a with
  | expire =>
    simp only [step] at hstep
    split_ifs at hstep
    cases hstep
    exact ⟨hdeleted, fun h => by cases h⟩
  | callback =>
    cases callback with
    | idle => cases hstep
    | write =>
      cases hstep
      exact ⟨hdeleted, fun h => by cases h⟩
    | rearm =>
      cases hstep
      exact ⟨hdeleted, fun _ => rfl⟩
  | exit =>
    cases exit with
    | timerDelete => exact absurd rfl hdeleted
    | clearReserved | free | setNull | deregister | ret =>
      cases hstep
      exact ⟨(fun h => by cases h), harmed⟩
    | done => cases hstep

/-- A timer that has survived stays alive. -/
theorem alive_run {acts : List Act} {s s' : State} {log : List Event} (h : Alive s)
    (hrun : system.exec s acts = some (s', log)) : Alive s' := by
  induction acts generalizing s log with
  | nil =>
    cases hrun
    exact h
  | cons a acts ih =>
    obtain ⟨t, out, outs, hstep, hrest, -⟩ := System.exec_cons.1 hrun
    exact ih (alive_step h hstep) hrest

/-- It survives if it is deleted while a callback is running. -/
theorem alive_of_not_along {acts : List Act} {s s' : State} {log : List Event}
    (hnot : ¬ system.Along DeletesIdle s acts) (hrun : system.exec s acts = some (s', log)) :
    Alive s' := by
  induction acts generalizing s log with
  | nil => exact absurd trivial hnot
  | cons a acts ih =>
    obtain ⟨t, out, outs, hstep, hrest, -⟩ := System.exec_cons.1 hrun
    rw [System.along_cons hstep, not_and_or] at hnot
    rcases hnot with hbusy | hnot
    · unfold DeletesIdle at hbusy
      push Not at hbusy
      obtain ⟨rfl, hexit, hcallback⟩ := hbusy
      have ht : step s .exit = some (⟨false, s.callback, s.buffer, .clearReserved⟩, []) := by
        simp only [step, exampleExit, hexit]
      rw [show system.step s .exit = step s .exit from rfl, ht] at hstep
      cases hstep
      have halive : Alive ⟨false, s.callback, s.buffer, .clearReserved⟩ :=
        ⟨(fun h => by cases h), fun h => absurd h hcallback⟩
      exact alive_run halive hrest
    · exact ih hnot hrest

theorem buffer_run {acts : List Act} {s : State} {log : List Event}
    (hrun : system.exec init acts = some (s, log)) : s.buffer = s.exit.buffer :=
  System.exec_induction (S := system) (I := fun s _ => s.buffer = s.exit.buffer)
    (fun _ _ _ _ _ h hstep => buffer_step h hstep) rfl hrun

/-- `example_exit` comes to its end. -/
theorem exists_end {s : State} (hdeleted : s.exit ≠ .timerDelete) (hbuffer : s.buffer = s.exit.buffer) :
    ∃ n log, system.exec s (List.replicate n .exit) =
      some (⟨s.pending, s.callback, .null, .done⟩, log) := by
  obtain ⟨pending, callback, buffer, exit⟩ := s
  cases exit with
  | timerDelete => exact absurd rfl hdeleted
  | clearReserved => exact ⟨5, _, rfl⟩
  | free => exact ⟨4, _, rfl⟩
  | setNull => exact ⟨3, _, rfl⟩
  | deregister =>
    cases hbuffer
    exact ⟨2, _, rfl⟩
  | ret =>
    cases hbuffer
    exact ⟨1, _, rfl⟩
  | done =>
    cases hbuffer
    exact ⟨0, _, rfl⟩

/-- A timer that is alive then writes to the buffer. -/
theorem exists_write {pending : Bool} {callback : Callback} (h : callback = .idle → pending = true) :
    ∃ acts s log, system.exec ⟨pending, callback, .null, .done⟩ acts = some (s, log) ∧
      .wrote .null ∈ log := by
  cases callback with
  | idle =>
    cases h rfl
    exact ⟨[.expire, .callback], _, [.wrote .null], rfl, List.mem_singleton_self _⟩
  | write => exact ⟨[.callback], _, [.wrote .null], rfl, List.mem_singleton_self _⟩
  | rearm =>
    exact ⟨[.callback, .expire, .callback], _, [.wrote .null], rfl, List.mem_singleton_self _⟩

/-- **When the timer is dead**: in every run of the callback and of `example_exit` in which no
callback is running when `timer_delete` is executed, nothing is written after the buffer has been
freed, and the timer is not pending when `example_exit` returns; and every other run can go on so that
the timer writes through the null pointer. -/
theorem torn_down_iff {acts : List Act} {s : State} {log : List Event}
    (hrun : system.exec init acts = some (s, log)) :
    (system.Along DeletesIdle init acts → ∀ e ∈ log, e.Right) ∧
      (¬ system.Along DeletesIdle init acts →
        ∃ acts' s' log', system.exec s acts' = some (s', log') ∧ .wrote .null ∈ log') := by
  refine ⟨fun halong => right_of_along halong hrun, fun hnot => ?_⟩
  have halive := alive_of_not_along hnot hrun
  obtain ⟨n, log₁, hend⟩ := exists_end halive.deleted (buffer_run hrun)
  obtain ⟨acts₂, s₂, log₂, hwrite, hmem⟩ := exists_write halive.armed
  exact ⟨_, s₂, _, System.exec_append hend hwrite, List.mem_append_right _ hmem⟩

/-- The timer expires twice, and the module is removed before it expires again. -/
def removed : List Act :=
  [.expire, .callback, .callback, .expire, .callback, .callback, .exit, .exit, .exit, .exit, .exit,
    .exit]

theorem torn_down_iff_removed :
    ∃ s log, system.exec init removed = some (s, log) ∧
      log = [.wrote .valid, .wrote .valid, .returned false] ∧ ∀ e ∈ log, e.Right := by
  obtain ⟨⟨s, log⟩, hrun, hval⟩ := Option.map_eq_some_iff.1
    (show (system.exec init removed).map Prod.snd =
      some [.wrote .valid, .wrote .valid, .returned false] by decide)
  exact ⟨s, log, hrun, hval, (torn_down_iff hrun).1 (by decide)⟩

/-- The module is removed while the callback is between its two statements. -/
theorem rearmed_after_delete :
    ¬ ∀ (acts : List Act) (s : State) (log : List Event),
      system.exec init acts = some (s, log) → ∀ e ∈ log, e.Right := by
  intro hall
  have hrun : system.exec init [.expire, .callback, .exit, .callback, .exit, .exit, .exit, .exit,
      .exit, .expire, .callback] =
      some (⟨false, .rearm, .null, .done⟩, [.wrote .valid, .returned true, .wrote .null]) := rfl
  have hwrong := hall _ _ _ hrun (.wrote .null) (by decide)
  cases hwrong

end IldDrivers.ExampleV11
