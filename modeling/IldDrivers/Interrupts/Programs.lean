import IldDrivers.Interrupts.Timestamps

/-!
# The programs that store the times of interrupts (`example-V-07` to `example-V-10`, `example-select`)

`example-V-07` returns 0 when there is nothing to read, and its handler wakes nobody. `example-select`
is `example-V-10` with its variables global again, and with the text of the time written before the
time is taken out, so that a buffer that is too short is refused first. Its `poll` changes nothing.

* `Program.step`: the five programs;
* `Move`, `move_of_step`: what a step of any of them can do;
* `holdings`: the times taken out, with the calls that have them, told from the history;
* `Told`: what the array and the calls in progress have to do with the history.
-/

namespace IldDrivers.Timestamps

inductive Program
  | v07
  | v08
  | v09
  | v10
  | exampleSelect
  deriving DecidableEq

variable {Pid : Type*} [DecidableEq Pid]

/-! ### The programs -/

/-- `copy_to_user` of the text with its NUL, and the value returned. -/
def transfer (abi : Abi) (a : ReadArgs) (value : ℕ) : ℤ × List UInt8 :=
  let text := kBuffer abi value
  let c := copyToUser (text ++ [0]) a.copied
  if c.2 ≠ 0 then (-eFault, c.1) else (text.length + 1, c.1)

/-- The text of the time, with its NUL, has room in the buffer of the call. -/
def HasRoom (abi : Abi) (a : ReadArgs) (value : ℕ) : Prop := (kBuffer abi value).length + 1 ≤ a.length

instance (abi : Abi) (a : ReadArgs) (value : ℕ) : Decidable (HasRoom abi a value) :=
  inferInstanceAs (Decidable (_ ≤ _))

/-- What follows the critical section in which the time has been taken out. -/
def Program.deliver (g : Program) (abi : Abi) (a : ReadArgs) (value : ℕ) : ℤ × List UInt8 :=
  match g with
  | .exampleSelect => transfer abi a value
  | _ => Timestamps.deliver abi a value

/-- The test of the length comes before the copy. -/
theorem deliver_eq (abi : Abi) (a : ReadArgs) (value : ℕ) : Timestamps.deliver abi a value =
    if HasRoom abi a value then transfer abi a value else (-eNoMem, []) := by
  have hroom : HasRoom abi a value ↔ ¬ a.length < (kBuffer abi value).length + 1 := by
    rw [HasRoom, not_lt]
  unfold Timestamps.deliver transfer
  by_cases hshort : a.length < (kBuffer abi value).length + 1
  · rw [if_pos hshort, if_neg (by rw [hroom]; exact not_not.2 hshort)]
  · rw [if_neg hshort, if_pos (hroom.2 hshort)]

theorem deliver_of_ne {g : Program} (hg : g ≠ .exampleSelect) (abi : Abi) (a : ReadArgs) (value : ℕ) :
    g.deliver abi a value = Timestamps.deliver abi a value := by
  rw [Program.deliver]
  exact hg

/-- A call that returns a length has put the text and its NUL in the buffer. -/
theorem deliver_text {g : Program} {abi : Abi} {a : ReadArgs} {value : ℕ}
    (hpos : 0 < (g.deliver abi a value).1) :
    (g.deliver abi a value).2 = kBuffer abi value ++ [0] := by
  have htransfer : 0 < (transfer abi a value).1 →
      (transfer abi a value).2 = kBuffer abi value ++ [0] := by
    unfold transfer
    simp only
    split_ifs with hcopied
    · exact fun h => absurd h (show ¬ 0 < -eFault by decide)
    · exact fun _ => copyToUser_complete (not_not.1 hcopied)
  by_cases hg : g = .exampleSelect
  · subst hg
    exact htransfer hpos
  · rw [deliver_of_ne hg, deliver_eq] at hpos ⊢
    split_ifs at hpos ⊢ with hroom
    · exact htransfer hpos
    · exact absurd hpos (show ¬ 0 < -eNoMem by decide)

/-- The next statement of a call of `example_read`. -/
def Program.readStep (g : Program) (abi : Abi) (s : State Pid) (p : Pid) (a : ReadArgs) (pc : ReadPc) :
    Option (State Pid × List (Event Pid)) :=
  match g, pc with
  | .v07, .lock =>
      if s.data.arrayEnd = 0 then some (s.setProc p .outside, [.returned p 0 []])
      else Timestamps.readStep .v10 abi s p a .lock
  | .exampleSelect, .lock =>
      if s.data.arrayEnd ≠ 0 ∧ a.length < (kBuffer abi (s.data.array 0)).length + 1 then
        some (s.setProc p .outside, [.returned p (-eNoMem) []])
      else Timestamps.readStep .v10 abi s p a .lock
  | .exampleSelect, .format value =>
      let r := transfer abi a value
      some (s.setProc p .outside, [.returned p r.1 r.2])
  | .v08, pc => Timestamps.readStep .v08 abi s p a pc
  | .v09, pc => Timestamps.readStep .v09 abi s p a pc
  | _, pc => Timestamps.readStep .v10 abi s p a pc

/-- Where `example_handler` goes from its critical section. -/
def Program.handled : Program → Proc
  | .v07 => .outside
  | _ => .handlerWake

def Program.step (g : Program) (abi : Abi) (s : State Pid) :
    Act Pid → Option (State Pid × List (Event Pid))
  | .run p =>
      match s.proc p with
      | .outside => none
      | .handlerLock =>
          if s.data.arrayEnd < exampleArraySize then
            some ({ s with data := s.data.record s.jiffies }.setProc p g.handled,
              [.recorded s.jiffies])
          else some (s.setProc p g.handled, [.dropped s.jiffies])
      | .handlerWake => some ({ s with proc := wakeUp s.proc }.setProc p .outside, [])
      | .read a pc => g.readStep abi s p a pc
  | a => Timestamps.step .v10 abi s a

def Program.system (g : Program) (abi : Abi) (Pid : Type*) [DecidableEq Pid] :
    System (State Pid) (Act Pid) (Event Pid) := ⟨g.step abi⟩

/-- Three of the programs, as they are elsewhere. -/
def Version.program : Version → Program
  | .v08 => .v08
  | .v09 => .v09
  | .v10 => .v10

theorem program_system (v : Version) (abi : Abi) :
    v.program.system abi Pid = Timestamps.system v abi Pid := by
  refine congrArg System.mk (funext fun s => funext fun a => ?_)
  cases a with
  | run p =>
    simp only [Program.step, Timestamps.step]
    cases s.proc p with
    | read a pc => cases v <;> cases pc <;> rfl
    | _ => cases v <;> rfl
  | _ => cases v <;> rfl

/-! ### What a step can do -/

/-- The time that an execution of `example_read` has taken out. -/
def Proc.taken : Proc → Option ℕ
  | .read _ (.format value) => some value
  | _ => none

/-- What a step does to the array, to what the calls have taken out of it and to the history. -/
inductive Move (g : Program) (abi : Abi) (s : State Pid) :
    Act Pid → State Pid → List (Event Pid) → Prop
  | quiet {a : Act Pid} {s' : State Pid} (hact : ∀ p, a = .run p → (s.proc p).taken = none)
      (hdata : s'.data = s.data) (htaken : ∀ q, (s'.proc q).taken = (s.proc q).taken)
      (hargs : ∀ q b value, s'.proc q = .read b (.format value) → s.proc q = .read b (.format value))
      (hjiffies : s.jiffies < 2 ^ abi.longBits → s'.jiffies < 2 ^ abi.longBits) :
      Move g abi s a s' []
  | record {p : Pid} (hp : s.proc p = .handlerLock) (hroom : s.data.arrayEnd < exampleArraySize) :
      Move g abi s (.run p) ({ s with data := s.data.record s.jiffies }.setProc p g.handled)
        [.recorded s.jiffies]
  | drop {p : Pid} (hp : s.proc p = .handlerLock) (hfull : ¬ s.data.arrayEnd < exampleArraySize) :
      Move g abi s (.run p) (s.setProc p g.handled) [.dropped s.jiffies]
  | remove {p : Pid} {a : ReadArgs} (hp : s.proc p = .read a .lock) (hsome : s.data.arrayEnd ≠ 0)
      (hroom : g = .exampleSelect → HasRoom abi a (s.data.array 0)) :
      Move g abi s (.run p)
        ({ s with data := s.data.removeFirst }.setProc p (.read a (.format (s.data.array 0))))
        [.removed p (s.data.array 0)]
  /-- A call returns without having taken a time. -/
  | refuse {p : Pid} {a : Act Pid} {b : ReadArgs} {pc : ReadPc} {ret : ℤ}
      (hact : ∀ q, a = .run q → q = p) (hp : s.proc p = .read b pc)
      (hpc : (Proc.read b pc).taken = none) (hret : ret ≤ 0) :
      Move g abi s a (s.setProc p .outside) [.returned p ret []]
  | finish {p : Pid} {a : ReadArgs} {value : ℕ} (hp : s.proc p = .read a (.format value)) :
      Move g abi s (.run p) (s.setProc p .outside)
        [.returned p (g.deliver abi a value).1 (g.deliver abi a value).2]

section Moves

variable {g : Program} {abi : Abi} {s s' : State Pid} {p : Pid} {out : List (Event Pid)}

@[simp] theorem handled_taken (g : Program) : g.handled.taken = none := by
  cases g <;> rfl

@[simp] theorem setProc_self (s : State Pid) (p : Pid) (x : Proc) : (s.setProc p x).proc p = x :=
  Function.update_self ..

theorem setProc_of_ne {q : Pid} (hq : q ≠ p) (s : State Pid) (x : Proc) :
    (s.setProc p x).proc q = s.proc q := Function.update_of_ne hq ..

/-- A process goes on without a time taken. -/
theorem Move.advance {a : Act Pid} {x : Proc} (hact : ∀ q, a = .run q → q = p)
    (hp : (s.proc p).taken = none) (hx : x.taken = none) : Move g abi s a (s.setProc p x) [] := by
  refine .quiet (fun q hq => hact q hq ▸ hp) rfl (fun q => ?_) (fun q b value hq => ?_) id
  · by_cases hqp : q = p
    · rw [hqp, setProc_self, hx, hp]
    · rw [setProc_of_ne hqp]
  · by_cases hqp : q = p
    · rw [hqp, setProc_self] at hq
      rw [hq] at hx
      cases hx
    · rwa [setProc_of_ne hqp] at hq

omit [DecidableEq Pid] in
theorem wakeUp_taken (proc : Pid → Proc) (q : Pid) : (wakeUp proc q).taken = (proc q).taken := by
  unfold wakeUp
  cases hproc : proc q with
  | read a pc => cases pc <;> rfl
  | _ => rfl

theorem move_wakeUp (hp : s.proc p = .handlerWake) :
    Move g abi s (.run p) ({ s with proc := wakeUp s.proc }.setProc p .outside) [] := by
  refine .quiet (fun q hq => ?_) rfl (fun q => ?_) (fun q b value hq => ?_) id
  · obtain rfl : p = q := by simpa using hq
    rw [hp]
    rfl
  · by_cases hqp : q = p
    · rw [hqp, setProc_self, hp]
      rfl
    · rw [setProc_of_ne hqp]
      exact wakeUp_taken s.proc q
  · by_cases hqp : q = p
    · rw [hqp, setProc_self] at hq
      cases hq
    · rw [setProc_of_ne hqp] at hq
      simp only [wakeUp] at hq
      split at hq
      · cases hq
      · exact hq

/-- The statements that the programs share. -/
theorem move_readStep {v : Version} {a : ReadArgs} {pc : ReadPc} (hp : s.proc p = .read a pc)
    (hdeliver : ∀ value, pc = .format value →
      g.deliver abi a value = Timestamps.deliver abi a value)
    (hroom : g = .exampleSelect → pc = .lock → s.data.arrayEnd ≠ 0 →
      HasRoom abi a (s.data.array 0))
    (hstep : Timestamps.readStep v abi s p a pc = some (s', out)) :
    Move g abi s (.run p) s' out := by
  have hself : ∀ q, Act.run p = Act.run q → q = p := fun q hq => by simpa using hq.symm
  cases pc with
  | lock =>
    simp only [readStep] at hstep
    split_ifs at hstep with hempty
    · cases hstep
      exact .advance hself (by rw [hp]; rfl) rfl
    · cases hstep
      exact .remove hp hempty fun hg => hroom hg rfl hempty
  | testNonblock =>
    simp only [readStep] at hstep
    split_ifs at hstep
    · cases hstep
      exact .refuse hself hp rfl (by decide)
    · cases hstep
      exact .advance hself (by rw [hp]; rfl) rfl
  | wait w =>
    simp only [readStep] at hstep
    split at hstep
    · cases hstep
      exact .advance hself (by rw [hp]; rfl) rfl
    · cases hstep
      exact .advance hself (by rw [hp]; rfl) rfl
    · cases hstep
  | format value =>
    cases hstep
    rw [← hdeliver value rfl]
    exact .finish hp

theorem move_programReadStep {a : ReadArgs} {pc : ReadPc} (hp : s.proc p = .read a pc)
    (hstep : g.readStep abi s p a pc = some (s', out)) : Move g abi s (.run p) s' out := by
  have hself : ∀ q, Act.run p = Act.run q → q = p := fun q hq => by simpa using hq.symm
  cases g with
  | v08 | v09 | v10 => exact move_readStep hp (fun _ _ => rfl) (fun hg => by cases hg) hstep
  | v07 =>
    have hshared : ∀ {pc}, s.proc p = .read a pc →
        Timestamps.readStep .v10 abi s p a pc = some (s', out) → Move .v07 abi s (.run p) s' out :=
      fun hp hstep => move_readStep hp (fun _ _ => rfl) (fun hg => by cases hg) hstep
    cases pc with
    | lock =>
      simp only [Program.readStep] at hstep
      split_ifs at hstep
      · cases hstep
        exact .refuse hself hp rfl le_rfl
      · exact hshared hp hstep
    | _ => exact hshared hp hstep
  | exampleSelect =>
    have hshared : ∀ {pc}, s.proc p = .read a pc → (∀ value, pc ≠ .format value) →
        (pc = .lock → s.data.arrayEnd ≠ 0 → HasRoom abi a (s.data.array 0)) →
        Timestamps.readStep .v10 abi s p a pc = some (s', out) →
        Move .exampleSelect abi s (.run p) s' out := fun hp hpc hroom hstep =>
      move_readStep hp (fun value hvalue => absurd hvalue (hpc value)) (fun _ => hroom) hstep
    cases pc with
    | lock =>
      simp only [Program.readStep] at hstep
      split_ifs at hstep with hshort
      · cases hstep
        exact .refuse hself hp rfl (by decide)
      · refine hshared hp (fun _ => by simp) (fun _ hsome => ?_) hstep
        exact not_lt.1 fun hlt => hshort ⟨hsome, hlt⟩
    | format value =>
      cases hstep
      exact .finish hp
    | testNonblock | wait w => exact hshared hp (fun _ => by simp) (fun hpc => by cases hpc) hstep

/-- Every step is one of these. -/
theorem move_of_step {a : Act Pid} (hstep : g.step abi s a = some (s', out)) :
    Move g abi s a s' out := by
  cases a with
  | tick =>
    cases hstep
    exact .quiet (by simp) rfl (fun _ => rfl) (fun _ _ _ => id) fun _ =>
      Nat.mod_lt _ (Nat.two_pow_pos _)
  | interrupt p =>
    simp only [Program.step, step] at hstep
    split at hstep
    · rename_i hp
      cases hstep
      exact .advance (by simp) (by rw [hp]; rfl) rfl
    · cases hstep
  | read p a =>
    simp only [Program.step, step] at hstep
    split at hstep
    · rename_i hp
      cases hstep
      exact .advance (by simp) (by rw [hp]; rfl) rfl
    · cases hstep
  | run p =>
    simp only [Program.step] at hstep
    split at hstep
    · cases hstep
    · rename_i hp
      split_ifs at hstep with hroom
      · cases hstep
        exact .record hp hroom
      · cases hstep
        exact .drop hp hroom
    · rename_i hp
      cases hstep
      exact move_wakeUp hp
    · rename_i hp
      exact move_programReadStep hp hstep
  | signal p =>
    simp only [Program.step, step] at hstep
    split at hstep
    · rename_i hp
      simp only [signalStep] at hstep
      split at hstep
      · cases hstep
        exact .advance (by simp) (by rw [hp]; rfl) rfl
      · cases hstep
        exact .refuse (by simp) hp rfl (by decide)
      · cases hstep
    · cases hstep

end Moves

/-! ### What the calls have taken -/

/-- The times taken out so far, each with the call that has taken it while this is in progress; a
call that returns an error gives its time up. -/
def account (xs : List (Option Pid × ℕ)) : Event Pid → List (Option Pid × ℕ)
  | .removed p value => xs ++ [(some p, value)]
  | .returned p ret _ =>
      if ret < 0 then xs.filter fun x => x.1 ≠ some p
      else xs.map fun x => if x.1 = some p then (none, x.2) else x
  | _ => xs

def holdings (log : List (Event Pid)) : List (Option Pid × ℕ) := log.foldl account []

/-- The times of the calls that have not failed. -/
def kept (log : List (Event Pid)) : List ℕ := (holdings log).map Prod.snd

/-- The time that the call in progress of the process has taken out. -/
def takenBy (p : Pid) (log : List (Event Pid)) : Option ℕ :=
  ((holdings log).find? fun x => x.1 = some p).map Prod.snd

/-- What the state has to do with the history: the times removed and the array, the calls in progress
that have taken a time, and the room that `example-select` has made sure of. -/
structure Told (g : Program) (abi : Abi) (s : State Pid) (log : List (Event Pid)) : Prop where
  queued : Queued s.data log
  holding : ∀ p, (holdings log).filter (fun x => x.1 = some p) =
    ((s.proc p).taken.map fun value => (some p, value)).toList
  kept_sublist : (kept log).Sublist (removed log)
  room : g = .exampleSelect → ∀ p a value, s.proc p = .read a (.format value) → HasRoom abi a value

section Account

variable {xs : List (Option Pid × ℕ)} {p q : Pid} {ret : ℤ} {user : List UInt8}

/-- What a call has taken, once another, or the same, has returned. -/
theorem filter_account_returned :
    (account xs (.returned p ret user)).filter (fun x => x.1 = some q) =
      if q = p then [] else xs.filter fun x => x.1 = some q := by
  simp only [account]
  split_ifs with hret hqp hqp
  · subst hqp
    rw [List.filter_filter]
    simp
  · rw [List.filter_filter]
    refine List.filter_congr fun x _ => ?_
    have himp : x.1 = some q → ¬ x.1 = some p := fun hx hx' => hqp (by simpa [hx] using hx')
    simpa using himp
  · subst hqp
    rw [List.filter_map, List.map_eq_nil_iff, List.filter_eq_nil_iff]
    intro x _
    by_cases hx : x.1 = some q <;> simp [hx]
  · induction xs with
    | nil => rfl
    | cons x xs ih =>
      rw [List.map_cons, List.filter_cons, List.filter_cons, ih]
      by_cases hx : x.1 = some p
      · have hne : ¬ p = q := fun h => hqp h.symm
        simp [hx, hne]
      · simp [hx]

/-- A call that has not taken anything, or does not fail, gives nothing up. -/
theorem map_account_returned (h : ret < 0 → xs.filter (fun x => x.1 = some p) = []) :
    (account xs (.returned p ret user)).map Prod.snd = xs.map Prod.snd := by
  simp only [account]
  split_ifs with hret
  · have hnone := List.filter_eq_nil_iff.1 (h hret)
    rw [List.filter_eq_self.2 fun x hx => by simpa using hnone x hx]
  · rw [List.map_map]
    refine List.map_congr_left fun x _ => ?_
    simp only [Function.comp_apply]
    split_ifs <;> rfl

/-- A call that fails gives up what it has taken. -/
theorem length_account_returned (hret : ret < 0) :
    (account xs (.returned p ret user)).length + (xs.filter fun x => x.1 = some p).length =
      xs.length := by
  simp only [account, if_pos hret]
  have hsum := List.length_eq_length_filter_add (l := xs) (fun x => decide (x.1 = some p))
  simp only [decide_not]
  omega

end Account

section Told

variable {g : Program} {abi : Abi} {s s' : State Pid} {log out : List (Event Pid)} {p : Pid}

theorem holdings_snoc (log : List (Event Pid)) (e : Event Pid) :
    holdings (log ++ [e]) = account (holdings log) e := by
  rw [holdings, List.foldl_append, List.foldl_cons, List.foldl_nil, holdings]

theorem Told.takenBy (ht : Told g abi s log) (p : Pid) :
    takenBy p log = (s.proc p).taken := by
  rw [Timestamps.takenBy, ← List.head?_filter, ht.holding p]
  cases (s.proc p).taken <;> rfl

theorem told_init (g : Program) (abi : Abi) (array : Memory ℕ) (jiffies : ℕ) :
    Told g abi (init Pid array jiffies) [] where
  queued := queued_init array
  holding _ := rfl
  kept_sublist := List.Sublist.refl _
  room _ p a value hp := by cases hp

/-- A step that leaves the calls with what they have. -/
theorem Told.same (ht : Told g abi s log) (hqueued : Queued s'.data (log ++ out))
    (hholdings : holdings (log ++ out) = holdings log)
    (hremoved : removed (log ++ out) = removed log)
    (htaken : ∀ q, (s'.proc q).taken = (s.proc q).taken)
    (hargs : ∀ q b value, s'.proc q = .read b (.format value) → s.proc q = .read b (.format value)) :
    Told g abi s' (log ++ out) where
  queued := hqueued
  holding q := by rw [hholdings, htaken q, ht.holding q]
  kept_sublist := by
    rw [kept, hholdings, hremoved]
    exact ht.kept_sublist
  room hg q b value hq := ht.room hg q b value (hargs q b value hq)

/-- A handler leaves its critical section. -/
theorem Told.handled (ht : Told g abi s log) {d : ExampleData} {e : Event Pid}
    (hp : s.proc p = .handlerLock) (hqueued : Queued d (log ++ [e]))
    (haccount : account (holdings log) e = holdings log) (hremoved : removed [e] = []) :
    Told g abi ({ s with data := d }.setProc p g.handled) (log ++ [e]) := by
  refine ht.same hqueued (by rw [holdings_snoc, haccount]) ?_ (fun q => ?_) fun q b value hq => ?_
  · rw [removed_append, hremoved, List.append_nil]
  · by_cases hqp : q = p
    · rw [hqp, setProc_self, handled_taken, hp]
      rfl
    · rw [setProc_of_ne hqp]
  · by_cases hqp : q = p
    · rw [hqp, setProc_self] at hq
      have hnone := handled_taken g
      rw [hq] at hnone
      cases hnone
    · rwa [setProc_of_ne hqp] at hq

/-- A call returns. -/
theorem Told.leave (ht : Told g abi s log) {ret : ℤ} {user : List UInt8} :
    Told g abi (s.setProc p .outside) (log ++ [.returned p ret user]) where
  queued := ht.queued.silent rfl rfl trivial
  holding q := by
    rw [holdings_snoc, filter_account_returned]
    by_cases hqp : q = p
    · rw [if_pos hqp, hqp, setProc_self]
      rfl
    · rw [if_neg hqp, setProc_of_ne hqp, ht.holding q]
  kept_sublist := by
    have hremoved : removed (log ++ [.returned p ret user]) = removed log := by
      rw [removed_append]
      exact List.append_nil _
    rw [hremoved, kept, holdings_snoc]
    refine List.Sublist.trans ?_ ht.kept_sublist
    by_cases hret : ret < 0
    · rw [account, if_pos hret]
      exact List.filter_sublist.map Prod.snd
    · rw [map_account_returned fun h => absurd h hret]
      exact List.Sublist.refl _
  room hg q b value hq := by
    by_cases hqp : q = p
    · rw [hqp, setProc_self] at hq
      cases hq
    · rw [setProc_of_ne hqp] at hq
      exact ht.room hg q b value hq

theorem Told.remove (ht : Told g abi s log) {a : ReadArgs} (hp : s.proc p = .read a .lock)
    (hsome : s.data.arrayEnd ≠ 0)
    (hroom : g = .exampleSelect → HasRoom abi a (s.data.array 0)) :
    Told g abi
      ({ s with data := s.data.removeFirst }.setProc p (.read a (.format (s.data.array 0))))
      (log ++ [.removed p (s.data.array 0)]) where
  queued := ht.queued.removeFirst hsome p
  holding q := by
    rw [holdings_snoc, account, List.filter_append, ht.holding q]
    by_cases hqp : q = p
    · rw [hqp, setProc_self, hp]
      simp [Proc.taken]
    · have hne : ¬ p = q := fun h => hqp h.symm
      rw [setProc_of_ne hqp]
      simp [hne]
  kept_sublist := by
    have hsub := ht.kept_sublist
    rw [kept] at hsub ⊢
    rw [holdings_snoc, account, List.map_append, removed_append]
    exact hsub.append (List.Sublist.refl _)
  room hg q b value hq := by
    by_cases hqp : q = p
    · rw [hqp, setProc_self] at hq
      cases hq
      exact hroom hg
    · rw [setProc_of_ne hqp] at hq
      exact ht.room hg q b value hq

theorem told_move {a : Act Pid} (ht : Told g abi s log) (hmove : Move g abi s a s' out) :
    Told g abi s' (log ++ out) := by
  cases hmove with
  | quiet hact hdata htaken hargs hjiffies =>
    refine ht.same ?_ ?_ ?_ htaken hargs
    · rw [hdata, List.append_nil]
      exact ht.queued
    · rw [List.append_nil]
    · rw [List.append_nil]
  | record hp hroom => exact ht.handled hp (ht.queued.record hroom _) rfl rfl
  | drop hp hfull => exact ht.handled hp (ht.queued.drop hfull _) rfl rfl
  | remove hp hsome hroom => exact ht.remove hp hsome hroom
  | refuse hact hp hpc hret => exact ht.leave
  | finish hp => exact ht.leave

theorem told_exec {array : Memory ℕ} {jiffies : ℕ} {acts : List (Act Pid)}
    (hrun : (g.system abi Pid).exec (init Pid array jiffies) acts = some (s, log)) :
    Told g abi s log :=
  System.exec_induction (I := Told g abi) (fun _ _ _ _ _ ht hstep => told_move ht (move_of_step hstep))
    (told_init g abi array jiffies) hrun

end Told

end IldDrivers.Timestamps
