import IldDrivers.EventLog.Drain

/-!
# The event log without a lock

`log_read` and `log_write` take no lock: between two helper calls of one process any other process
may run. Here each helper call is one step, together with the statements on local variables that
follow it.

* `readStmt`: the next helper call of a `log_read`; alone, they make up `logRead`
  (`readStmt_alone`);
* `system`: any number of processes inside the two functions;
* `bounds_iff_removals_find_event`: the table keeps its bounds exactly in the runs in which no
  process removes an event from a table that others have emptied since its test;
* `two_removals_of_one_event`: a run in which one does.
-/

namespace IldDrivers.TpIII02.Concurrent

/-- The helper that a process inside `log_read` is about to call, with the local `string` and
`chars_to_return` that the rest of the call still needs. -/
inductive Pc
  /-- The first `event_table_empty`. -/
  | empty
  /-- The first `format_first_event`. -/
  | format
  /-- `*offset = 0`, then `remove_first_event`. -/
  | remove (string : Memory UInt8)
  /-- The second `event_table_empty`. -/
  | emptyAgain (string : Memory UInt8)
  /-- The second `format_first_event`. -/
  | formatAgain (string : Memory UInt8)
  /-- `copy_to_user`. -/
  | copyOut (string : Memory UInt8) (charsToReturn : ℤ)
  | ret (ret : ℤ) (user : List UInt8)

/-- The next helper call of a `log_read`: the table and the offset after it, and what comes next. -/
def readStmt (a : ReadArgs) (t : Table) (offset : ℤ) : Pc → Table × ℤ × Pc
  | .empty => (t, offset, if eventTableEmpty t then .ret 0 [] else .format)
  | .format =>
      let string := formatFirstEvent t a.stack 64
      let charsToReturn := cInt (strlen string - offset)
      (t, offset, if charsToReturn ≤ 0 then .remove string else .copyOut string charsToReturn)
  | .remove string => (removeFirstEvent t, 0, .emptyAgain string)
  | .emptyAgain string =>
      (t, offset, if eventTableEmpty t then .ret 0 [] else .formatAgain string)
  | .formatAgain string =>
      let string := formatFirstEvent t string 64
      let charsToReturn := cInt (strlen string - offset)
      (t, offset, if charsToReturn ≤ 0 then .ret 0 [] else .copyOut string charsToReturn)
  | .copyOut string charsToReturn =>
      let o := TpIII02.copyOut t string offset charsToReturn a
      (o.table, o.offset, .ret o.ret o.user)
  | .ret ret user => (t, offset, .ret ret user)

/-- A `log_read` that nobody disturbs. -/
theorem readStmt_alone (a : ReadArgs) (t : Table) (offset : ℤ) :
    (fun r : Table × ℤ × Pc => readStmt a r.1 r.2.1 r.2.2)^[6] (t, offset, .empty) =
      ((logRead t offset a).table, (logRead t offset a).offset,
        .ret (logRead t offset a).ret (logRead t offset a).user) := by
  have hret : ∀ n (t : Table) (offset r : ℤ) (user : List UInt8),
      (fun r : Table × ℤ × Pc => readStmt a r.1 r.2.1 r.2.2)^[n] (t, offset, .ret r user) =
        (t, offset, .ret r user) := fun n t offset r user =>
    Function.iterate_fixed rfl n
  have hstep : ∀ n (t t' : Table) (offset offset' : ℤ) (pc pc' : Pc),
      readStmt a t offset pc = (t', offset', pc') →
      (fun r : Table × ℤ × Pc => readStmt a r.1 r.2.1 r.2.2)^[n + 1] (t, offset, pc) =
        (fun r : Table × ℤ × Pc => readStmt a r.1 r.2.1 r.2.2)^[n] (t', offset', pc') := by
    intro n t t' offset offset' pc pc' h
    rw [Function.iterate_succ_apply, h]
  unfold logRead
  by_cases hempty : eventTableEmpty t = true
  · rw [hstep 5 t t offset offset .empty (.ret 0 []) (by simp only [readStmt, if_pos hempty]), hret,
      if_pos hempty]
  · rw [hstep 5 t t offset offset .empty .format (by simp only [readStmt, if_neg hempty]),
      if_neg hempty]
    set string := formatFirstEvent t a.stack 64 with hstring
    by_cases hend : cInt (strlen string - offset) ≤ 0
    · rw [hstep 4 t t offset offset .format (.remove string)
          (by simp only [readStmt, ← hstring, if_pos hend]),
        hstep 3 t (removeFirstEvent t) offset 0 (.remove string) (.emptyAgain string) rfl]
      simp only [if_pos hend]
      by_cases hlast : eventTableEmpty (removeFirstEvent t) = true
      · rw [hstep 2 (removeFirstEvent t) (removeFirstEvent t) 0 0 (.emptyAgain string) (.ret 0 [])
          (by simp only [readStmt, if_pos hlast]), hret, if_pos hlast]
      · rw [hstep 2 (removeFirstEvent t) (removeFirstEvent t) 0 0 (.emptyAgain string)
          (.formatAgain string) (by simp only [readStmt, if_neg hlast]), if_neg hlast]
        set string' := formatFirstEvent (removeFirstEvent t) string 64 with hstring'
        by_cases hend' : cInt (strlen string' - 0) ≤ 0
        · rw [hstep 1 (removeFirstEvent t) (removeFirstEvent t) 0 0 (.formatAgain string) (.ret 0 [])
            (by simp only [readStmt, ← hstring', if_pos hend']), hret, if_pos hend']
        · rw [hstep 1 (removeFirstEvent t) (removeFirstEvent t) 0 0 (.formatAgain string)
            (.copyOut string' (cInt (strlen string' - 0)))
            (by simp only [readStmt, ← hstring', if_neg hend']), if_neg hend']
          rfl
    · rw [hstep 4 t t offset offset .format (.copyOut string (cInt (strlen string - offset)))
        (by simp only [readStmt, ← hstring, if_neg hend])]
      simp only [if_neg hend]
      rw [hstep 3 t _ offset _ (.copyOut string _) _ rfl, hret]

variable {Pid File : Type*}

/-- A process: in user space, inside `log_read` with its copy of the position of the file, inside
`log_write` before its call of `add_event_to_table`, or about to return from there. -/
inductive Proc (File : Type*)
  | user
  | read (f : File) (a : ReadArgs) (offset : ℤ) (pc : Pc)
  | write (a : WriteArgs)
  | wrote (ret : ℤ)

structure State (Pid File : Type*) where
  table : Table
  offset : File → ℤ
  proc : Pid → Proc File

/-- A process makes a call, or executes its next helper call; `now` is what the clock shows. -/
inductive Act (Pid File : Type*)
  | read (p : Pid) (f : File) (a : ReadArgs)
  | write (p : Pid) (a : WriteArgs)
  | run (p : Pid) (now : Int64)

inductive Output (Pid : Type*)
  /-- `add_event_to_table` stores an event at this index. -/
  | stored (index : ℤ)
  | returned (p : Pid) (ret : ℤ) (user : List UInt8)
  deriving DecidableEq

variable [DecidableEq Pid] [DecidableEq File]

def step (s : State Pid File) : Act Pid File → Option (State Pid File × List (Output Pid))
  | .read p f a =>
      match s.proc p with
      | .user =>
          some ({ s with proc := Function.update s.proc p (.read f a (s.offset f) .empty) }, [])
      | _ => none
  | .write p a =>
      match s.proc p with
      | .user => some ({ s with proc := Function.update s.proc p (.write a) }, [])
      | _ => none
  | .run p now =>
      match s.proc p with
      | .user => none
      | .read f _ offset (.ret ret user) =>
          some ({ s with
            offset := Function.update s.offset f (filePosition (s.offset f) offset ret)
            proc := Function.update s.proc p .user }, [.returned p ret user])
      | .read f a offset pc =>
          let r := readStmt a s.table offset pc
          some ({ s with
            table := r.1
            proc := Function.update s.proc p (.read f a r.2.1 r.2.2) }, [])
      | .write a =>
          let r := logWrite s.table a now
          some ({ s with table := r.1, proc := Function.update s.proc p (.wrote r.2) },
            if s.table.nbEvents < r.1.nbEvents then [.stored s.table.nbEvents] else [])
      | .wrote ret =>
          some ({ s with proc := Function.update s.proc p .user }, [.returned p ret []])

/-- The processes using the module. -/
def system (Pid File : Type*) [DecidableEq Pid] [DecidableEq File] :
    System (State Pid File) (Act Pid File) (Output Pid) := ⟨step⟩

/-- The module just loaded, with files open at the given offsets and nobody inside. -/
def init (Pid : Type*) (offset : File → ℤ) : State Pid File := ⟨Table.init, offset, fun _ => .user⟩

/-- The step is a call of `remove_first_event`. -/
def Removes (s : State Pid File) (act : Act Pid File) : Prop :=
  ∃ p now f a offset string, act = .run p now ∧ s.proc p = .read f a offset (.remove string)

instance (s : State Pid File) (act : Act Pid File) : Decidable (Removes s act) :=
  match act with
  | .read _ _ _ | .write _ _ => .isFalse (by rintro ⟨p, now, f, a, o, string, hact, -⟩; cases hact)
  | .run p now =>
      match h : s.proc p with
      | .read f a offset (.remove string) => .isTrue ⟨p, now, f, a, offset, string, rfl, h⟩
      | .user | .write _ | .wrote _ | .read _ _ _ .empty | .read _ _ _ .format
      | .read _ _ _ (.emptyAgain _) | .read _ _ _ (.formatAgain _) | .read _ _ _ (.copyOut _ _)
      | .read _ _ _ (.ret _ _) =>
          .isFalse (by rintro ⟨p', now', f', a', o, string, hact, hp⟩; cases hact; simp [h] at hp)

/-- If the step is a call of `remove_first_event`, it finds an event in the table. -/
def FindsEvent (s : State Pid File) (act : Act Pid File) : Prop :=
  Removes s act → 0 < s.table.nbEvents

instance (s : State Pid File) (act : Act Pid File) : Decidable (FindsEvent s act) :=
  inferInstanceAs (Decidable (_ → _))

/-- What a write does to the count. -/
theorem nbEvents_logWrite (t : Table) (a : WriteArgs) (now : Int64) :
    (logWrite t a now).1.nbEvents = t.nbEvents ∨
      t.nbEvents < nbEventMax ∧ (logWrite t a now).1.nbEvents = t.nbEvents + 1 := by
  cases hparsed : a.parsed with
  | error err => exact .inl (by simp only [logWrite, hparsed])
  | ok value =>
    by_cases hroom : t.nbEvents < nbEventMax
    · exact .inr ⟨hroom, by simp [logWrite, hparsed, addEventToTable_eq hroom]⟩
    · left
      have hfull : eventTableFull t = true := decide_eq_true (not_lt.1 hroom)
      simp [logWrite, hparsed, addEventToTable, hfull, eNoSpc]

/-- What the helpers of a read do to the count. -/
theorem nbEvents_readStmt (a : ReadArgs) (t : Table) (offset : ℤ) (pc : Pc) :
    ((readStmt a t offset pc).1.nbEvents = t.nbEvents ∧ ∀ string, pc ≠ .remove string) ∨
      (∃ string, pc = .remove string) ∧ (readStmt a t offset pc).1.nbEvents = t.nbEvents - 1 := by
  cases pc with
  | remove string => exact .inr ⟨⟨string, rfl⟩, nbEvents_removeFirstEvent t⟩
  | copyOut string chars =>
    refine .inl ⟨?_, fun string h => by cases h⟩
    simp only [readStmt, TpIII02.copyOut]
    split_ifs <;> rfl
  | empty | format | emptyAgain | formatAgain | ret =>
    exact .inl ⟨rfl, fun string h => by cases h⟩

/-- What a step does to the count, and what it stores. -/
inductive Counts (s : State Pid File) (act : Act Pid File) (s' : State Pid File)
    (out : List (Output Pid)) : Prop
  | keeps (hcount : s'.table.nbEvents = s.table.nbEvents) (hnot : ¬ Removes s act)
      (hout : ∀ i, .stored i ∉ out)
  | removes (hremoves : Removes s act) (hcount : s'.table.nbEvents = s.table.nbEvents - 1)
      (hout : out = [])
  | stores (hroom : s.table.nbEvents < nbEventMax) (hnot : ¬ Removes s act)
      (hcount : s'.table.nbEvents = s.table.nbEvents + 1) (hout : out = [.stored s.table.nbEvents])

theorem counts_of_step {s s' : State Pid File} {act : Act Pid File} {out : List (Output Pid)}
    (hstep : step s act = some (s', out)) : Counts s act s' out := by
  cases act with
  | read p f a | write p a =>
    simp only [step] at hstep
    split at hstep <;> cases hstep
    refine .keeps rfl ?_ (fun i hi => ?_)
    · rintro ⟨p', now, f', a', offset, string, hact, -⟩
      cases hact
    · cases hi
  | run p now =>
    -- the step is a removal only if `p` stands before one
    have hnot : (∀ f a offset string, s.proc p ≠ .read f a offset (.remove string)) →
        ¬ Removes s (.run p now) := by
      rintro hne ⟨p', now', f, a, offset, string, hact, hp⟩
      cases hact
      exact hne f a offset string hp
    simp only [step] at hstep
    split at hstep
    · cases hstep
    · next f a offset ret user hp =>
      cases hstep
      exact .keeps rfl (hnot fun f' a' offset' string => by simp [hp]) fun i hi => by simp at hi
    · next f a offset pc hret hp =>
      cases hstep
      rcases nbEvents_readStmt a s.table offset pc with ⟨hsame, hne⟩ | ⟨⟨string, rfl⟩, hless⟩
      · refine .keeps hsame (hnot fun f' a' offset' string => ?_) (fun i hi => ?_)
        · rw [hp]
          rintro ⟨⟩
          exact hne string rfl
        · cases hi
      · exact .removes ⟨p, now, f, a, offset, string, rfl, hp⟩ hless rfl
    · next a hp =>
      cases hstep
      have hnot' := hnot fun f' a' offset string => by simp [hp]
      rcases nbEvents_logWrite s.table a now with hsame | ⟨hroom, hmore⟩
      · refine .keeps hsame hnot' fun i hi => ?_
        rw [hsame, if_neg (lt_irrefl _)] at hi
        cases hi
      · exact .stores hroom hnot' hmore (by rw [hmore, if_pos (lt_add_one _)])
    · next ret hp =>
      cases hstep
      exact .keeps rfl (hnot fun f' a' offset string => by simp [hp]) fun i hi => by simp at hi

/-- A step that is not a removal from an empty table keeps the bounds, and stores in the table only
what it stores. -/
theorem sound_step {s s' : State Pid File} {act : Act Pid File} {out : List (Output Pid)}
    (h : s.table.Sound) (hfinds : FindsEvent s act) (hstep : step s act = some (s', out)) :
    s'.table.Sound ∧ ∀ i, .stored i ∈ out → 0 ≤ i ∧ i < nbEventMax := by
  have h₀ := h.nonneg
  have h₁ := h.le_max
  cases counts_of_step hstep with
  | keeps hcount hnot hout => exact ⟨⟨by omega, by omega⟩, fun i hi => absurd hi (hout i)⟩
  | removes hremoves hcount hout =>
    have hpos := hfinds hremoves
    refine ⟨⟨by omega, by omega⟩, fun i hi => ?_⟩
    rw [hout] at hi
    cases hi
  | stores hroom hnot hcount hout =>
    refine ⟨⟨by omega, by omega⟩, fun i hi => ?_⟩
    rw [hout] at hi
    cases List.mem_singleton.1 hi
    exact ⟨h₀, hroom⟩

/-- A removal from an empty table leaves the bounds. -/
theorem findsEvent_of_sound {s s' : State Pid File} {act : Act Pid File} {out : List (Output Pid)}
    (hstep : step s act = some (s', out)) (hsound : s'.table.Sound) : FindsEvent s act := by
  intro hremoves
  have h₀ := hsound.nonneg
  cases counts_of_step hstep with
  | keeps hcount hnot hout => exact absurd hremoves hnot
  | removes _ hcount hout => omega
  | stores hroom hnot hcount hout => exact absurd hremoves hnot

/-- **When the table keeps its bounds.** In every run, with helper calls interleaved in any way, the
count stays between 0 and `NB_EVENT_MAX` exactly when every `remove_first_event` finds an event in
the table; and then `add_event_to_table` stores inside the table only. -/
theorem bounds_iff_removals_find_event {offset : File → ℤ} {acts : List (Act Pid File)}
    {s : State Pid File} {log : List (Output Pid)}
    (hrun : (system Pid File).exec (init Pid offset) acts = some (s, log)) :
    ((system Pid File).Always (fun s => s.table.Sound) (init Pid offset) acts ↔
      (system Pid File).Along FindsEvent (init Pid offset) acts) ∧
    ((system Pid File).Along FindsEvent (init Pid offset) acts →
      ∀ i, .stored i ∈ log → 0 ≤ i ∧ i < nbEventMax) := by
  have hinit : (init Pid offset : State Pid File).table.Sound :=
    ⟨le_rfl, show (0 : ℤ) ≤ 64 by decide⟩
  refine ⟨System.always_iff_along (J := fun s => s.table.Sound) (Q := fun s => s.table.Sound)
      (P := FindsEvent) (fun _ h => h)
    (fun _ _ _ _ h hfinds hstep => (sound_step h hfinds hstep).1)
    (fun _ _ _ _ hstep hsound => findsEvent_of_sound hstep hsound) hinit hrun, fun halong => ?_⟩
  have hI := System.exec_induction_along (P := FindsEvent)
    (I := fun (s : State Pid File) log =>
      s.table.Sound ∧ ∀ i, Output.stored i ∈ log → 0 ≤ i ∧ i < nbEventMax)
    (fun s log act s' out h hfinds hstep => ?_) ⟨hinit, fun i hi => by cases hi⟩ halong hrun
  · exact hI.2
  · obtain ⟨hsound, hstored⟩ := sound_step h.1 hfinds hstep
    refine ⟨hsound, fun i hi => ?_⟩
    rcases List.mem_append.1 hi with hold | hnew
    · exact h.2 i hold
    · exact hstored i hnew

/-- Process `p` executes `n` helper calls. -/
def Act.runs (p : Pid) (n : ℕ) : List (Act Pid File) := List.replicate n (.run p 0)

/-- One event; two files come to the end of it. -/
def bothAtEnd : List (Act ℕ ℕ) :=
  .write 0 ⟨1, .ok 7⟩ :: Act.runs 0 2 ++ .read 0 0 ⟨64, 64, fun _ => 0⟩ :: Act.runs 0 4 ++
    .read 1 1 ⟨64, 64, fun _ => 0⟩ :: Act.runs 1 4

/-- The table keeps its bounds while they read. -/
theorem bounds_iff_removals_find_event_bothAtEnd :
    ∃ (s : State ℕ ℕ) (log : List (Output ℕ)),
      (system ℕ ℕ).exec (init ℕ fun _ => 0) bothAtEnd = some (s, log) ∧
      (system ℕ ℕ).Always (fun s => s.table.Sound) (init ℕ fun _ => 0) bothAtEnd := by
  obtain ⟨⟨s, log⟩, hrun, -⟩ := Option.map_eq_some_iff.1
    (show ((system ℕ ℕ).exec (init ℕ fun _ => 0) bothAtEnd).map (fun r => r.1.table.nbEvents) =
      some 1 by decide +kernel)
  have hfinds : (system ℕ ℕ).Along FindsEvent (init ℕ fun _ => 0) bothAtEnd := by decide +kernel
  exact ⟨s, log, hrun, (bounds_iff_removals_find_event hrun).1.2 hfinds⟩

/-- Then both test the table, and both remove the event; a third process writes another one. -/
def bothRemove : List (Act ℕ ℕ) :=
  .read 0 0 ⟨64, 64, fun _ => 0⟩ :: Act.runs 0 2 ++ .read 1 1 ⟨64, 64, fun _ => 0⟩ :: Act.runs 1 2 ++
    [.run 0 0, .run 1 0]

/-- The count becomes -1, and the next event is stored in front of the table. -/
theorem two_removals_of_one_event :
    ∃ (s s' : State ℕ ℕ) (log log' : List (Output ℕ)),
      (system ℕ ℕ).exec (init ℕ fun _ => 0) (bothAtEnd ++ bothRemove) = some (s, log) ∧
      ¬ s.table.Sound ∧
      (system ℕ ℕ).exec s [.write 2 ⟨1, .ok 8⟩, .run 2 0] = some (s', log') ∧
      .stored (-1) ∈ log' := by
  obtain ⟨⟨s, log⟩, hrun, hwrite⟩ := Option.bind_eq_some_iff.1
    (show (((system ℕ ℕ).exec (init ℕ fun _ => 0) (bothAtEnd ++ bothRemove)).bind fun r =>
        ((system ℕ ℕ).exec r.1 [.write 2 ⟨1, .ok 8⟩, .run 2 0]).map fun q =>
          (r.1.table.nbEvents, q.2)) = some (-1, [.stored (-1)]) by decide +kernel)
  obtain ⟨⟨s', log'⟩, hrun', hval⟩ := Option.map_eq_some_iff.1 hwrite
  simp only [Prod.mk.injEq] at hval
  obtain ⟨hcount, rfl⟩ := hval
  refine ⟨s, s', log, _, hrun, fun hsound => ?_, hrun', List.mem_singleton_self _⟩
  have := hsound.nonneg
  omega

end IldDrivers.TpIII02.Concurrent
