import IldDrivers.Interrupts.Programs

/-!
# What a failing `read` of a time costs (`example-V-10`, `example-select`)

`example-V-10` looks at the length of the buffer, and `copy_to_user` at its memory, when the time is
out of the array; in `example-select` the length comes before. Nothing puts a time back.

* `TextFits`: the calls that have taken a time can deliver it;
* `failing_reads_iff`: the runs in which the calls that fail take nothing.
-/

namespace IldDrivers.Timestamps

variable {Pid : Type*} [DecidableEq Pid]

/-- If the step is the last of a call that has taken a time, the buffer of the call has room for the
text of this, with its NUL, and all of it can be written. -/
def TextFits (abi : Abi) (s : State Pid) (act : Act Pid) : Prop :=
  ∀ p a value, act = .run p → s.proc p = .read a (.format value) →
    HasRoom abi a value ∧ (kBuffer abi value).length + 1 ≤ a.copied

section Calls

variable {g : Program} {abi : Abi} {a : ReadArgs} {value : ℕ}

theorem transfer_neg_iff : (transfer abi a value).1 < 0 ↔ ¬ (kBuffer abi value).length + 1 ≤ a.copied := by
  have hlen : (kBuffer abi value ++ [0]).length = (kBuffer abi value).length + 1 := by simp
  unfold transfer copyToUser
  simp only [hlen]
  split_ifs with hcopied
  · exact iff_of_true (show -eFault < 0 by decide) (by omega)
  · exact iff_of_false (by simp only; omega) (by omega)

/-- When the calls that have taken a time fail. -/
theorem deliver_neg_iff (hroom : g = .exampleSelect → HasRoom abi a value) :
    (g.deliver abi a value).1 < 0 ↔
      ¬ (HasRoom abi a value ∧ (kBuffer abi value).length + 1 ≤ a.copied) := by
  cases g with
  | exampleSelect =>
    have hthis := hroom rfl
    rw [Program.deliver, transfer_neg_iff]
    simp only [hthis, true_and]
  | v07 | v08 | v09 | v10 =>
    rw [deliver_of_ne (by decide), deliver_eq]
    by_cases hthis : HasRoom abi a value
    · rw [if_pos hthis, transfer_neg_iff]
      simp only [hthis, true_and]
    · rw [if_neg hthis]
      simp only [hthis, false_and, not_false_eq_true, iff_true]
      decide

end Calls

section Runs

variable {g : Program} {abi : Abi} {s s' : State Pid} {log out : List (Event Pid)}

omit [DecidableEq Pid] in
/-- A step that is not the last of a call that has taken a time. -/
theorem textFits_of_taken {act : Act Pid} (h : ∀ p, act = .run p → (s.proc p).taken = none) :
    TextFits abi s act := by
  intro p a value hrun hp
  have hnone := h p hrun
  rw [hp] at hnone
  cases hnone

/-- An event that takes no time, and after which the calls have what they had. -/
theorem kept_eq_snoc {e : Event Pid} (hremoved : removed [e] = [])
    (haccount : (account (holdings log) e).map Prod.snd = (holdings log).map Prod.snd) :
    kept (log ++ [e]) = removed (log ++ [e]) ↔ kept log = removed log := by
  rw [kept, kept, holdings_snoc, haccount, removed_append, hremoved, List.append_nil]

/-- A time is given up by the calls that have taken one and fail, and by no others. -/
theorem kept_move {act : Act Pid} (ht : Told g abi s log) (hmove : Move g abi s act s' out) :
    kept (log ++ out) = removed (log ++ out) ↔ kept log = removed log ∧ TextFits abi s act := by
  cases hmove with
  | quiet hact hdata htaken hargs hjiffies =>
    rw [List.append_nil]
    exact (and_iff_left (textFits_of_taken hact)).symm
  | @record p hp hroom | @drop p hp hfull =>
    have hfits : TextFits abi s (.run p) := textFits_of_taken fun q hq => by
      cases hq
      rw [hp]
      rfl
    rw [kept_eq_snoc rfl rfl]
    exact (and_iff_left hfits).symm
  | @remove p a hp hsome hroom =>
    have hfits : TextFits abi s (.run p) := textFits_of_taken fun q hq => by
      cases hq
      rw [hp]
      rfl
    rw [kept, kept, holdings_snoc, account, List.map_append, removed_append, and_iff_left hfits]
    exact List.append_left_inj _
  | @refuse p act b pc ret hact hp hpc hret =>
    have hfits : TextFits abi s act := textFits_of_taken fun q hq => by
      rw [hact q hq, hp]
      exact hpc
    have hnone : (holdings log).filter (fun x => x.1 = some p) = [] := by
      rw [ht.holding p, hp, hpc]
      rfl
    rw [kept_eq_snoc rfl (map_account_returned fun _ => hnone)]
    exact (and_iff_left hfits).symm
  | @finish p a value hp =>
    have hfits : TextFits abi s (.run p) ↔
        HasRoom abi a value ∧ (kBuffer abi value).length + 1 ≤ a.copied := by
      constructor
      · intro h
        exact h p a value rfl hp
      · intro h q a' value' hrun hq
        cases hrun
        rw [hp] at hq
        cases hq
        exact h
    have hfails := deliver_neg_iff (g := g) fun hg => ht.room hg p a value hp
    by_cases hneg : (g.deliver abi a value).1 < 0
    · refine iff_of_false (fun heq => ?_) fun h => hfails.1 hneg (hfits.1 h.2)
      -- the time that the call has taken is missing from now on
      have hheld : ((holdings log).filter fun x => x.1 = some p).length = 1 := by
        rw [ht.holding p, hp]
        rfl
      have hlost : (account (holdings log) (.returned p (g.deliver abi a value).1
          (g.deliver abi a value).2)).length + _ = (holdings log).length :=
        length_account_returned hneg
      have hle := ht.kept_sublist.length_le
      have hlength := congrArg List.length heq
      rw [removed_append, kept, holdings_snoc, List.length_map, List.length_append] at hlength
      rw [kept, List.length_map] at hle
      omega
    · rw [kept_eq_snoc rfl (map_account_returned fun h => absurd h hneg), hfits]
      exact (and_iff_left (not_not.1 fun h => hneg (hfails.2 h))).symm

/-- **Calls that fail**: in every run of any of the programs, whatever the buffers and the results of
`copy_to_user`, the times of the calls that have not failed, followed by the array, are the times
that have been recorded, as if the calls that have failed had not been made, exactly when each call
that has taken a time has a buffer with room for its text, all of which can be written. -/
theorem failing_reads_iff {array : Memory ℕ} {jiffies : ℕ} {acts : List (Act Pid)}
    (hrun : (g.system abi Pid).exec (init Pid array jiffies) acts = some (s, log)) :
    kept log ++ s.data.pending = recorded log ↔
      (g.system abi Pid).Along (TextFits abi) (init Pid array jiffies) acts := by
  have hcalls := System.iff_along_of_step (Q := fun _ log => kept log = removed log)
    (P := TextFits abi) (I := Told g abi) (fun _ _ _ _ _ ht hstep => told_move ht (move_of_step hstep))
    (fun _ _ _ _ _ ht hstep => kept_move ht (move_of_step hstep)) (told_init g abi array jiffies)
    hrun
  have hall := (told_exec hrun).queued.removed_append
  rw [List.nil_append] at hcalls
  calc kept log ++ s.data.pending = recorded log
      ↔ kept log ++ s.data.pending = removed log ++ s.data.pending := by rw [hall]
    _ ↔ kept log = removed log := List.append_left_inj _
    _ ↔ _ := hcalls.trans (and_iff_right rfl)

end Runs

/-- An interrupt at time 7, and a `read` into a buffer of that length, of which so many bytes can be
written. -/
def readOnce (length copied : ℕ) : List (Act Bool) :=
  [.interrupt false, .run false, .run false, .read true ⟨false, length, copied⟩, .run true, .run true]

theorem failing_reads_iff_once :
    ∃ s log, (Program.v10.system .lp64 Bool).exec (init Bool (fun _ => 0) 7) (readOnce 16 16) =
        some (s, log) ∧
      (Program.v10.system .lp64 Bool).Along (TextFits .lp64) (init Bool (fun _ => 0) 7)
        (readOnce 16 16) := by
  obtain ⟨⟨s, log⟩, hrun, hval⟩ := Option.map_eq_some_iff.1
    (show ((Program.v10.system .lp64 Bool).exec (init Bool (fun _ => 0) 7) (readOnce 16 16)).map
        (fun r => (kept r.2, r.1.data.pending, recorded r.2)) = some ([7], [], [7]) by
      decide +kernel)
  simp only [Prod.mk.injEq] at hval
  obtain ⟨hkept, hpending, hrecorded⟩ := hval
  refine ⟨s, log, hrun, (failing_reads_iff hrun).1 ?_⟩
  rw [hkept, hpending, hrecorded]
  rfl

/-- A buffer of one byte in `example-V-10`, and one that cannot be written in `example-select`: the
call returns an error and the time is gone. -/
theorem failing_read_loses_time :
    ∃ s log s' log',
      (Program.v10.system .lp64 Bool).exec (init Bool (fun _ => 0) 7) (readOnce 1 16) =
        some (s, log) ∧
      Event.returned true (-eNoMem) [] ∈ log ∧
      ¬ kept log ++ s.data.pending = recorded log ∧
      (Program.exampleSelect.system .lp64 Bool).exec (init Bool (fun _ => 0) 7) (readOnce 16 0) =
        some (s', log') ∧
      Event.returned true (-eFault) [] ∈ log' ∧
      ¬ kept log' ++ s'.data.pending = recorded log' := by
  obtain ⟨⟨s, log⟩, hrun, hval⟩ := Option.map_eq_some_iff.1
    (show ((Program.v10.system .lp64 Bool).exec (init Bool (fun _ => 0) 7) (readOnce 1 16)).map
        (fun r => (r.2.contains (Event.returned true (-eNoMem) []), kept r.2, r.1.data.pending,
          recorded r.2)) = some (true, [], [], [7]) by decide +kernel)
  obtain ⟨⟨s', log'⟩, hrun', hval'⟩ := Option.map_eq_some_iff.1
    (show ((Program.exampleSelect.system .lp64 Bool).exec (init Bool (fun _ => 0) 7)
        (readOnce 16 0)).map (fun r => (r.2.contains (Event.returned true (-eFault) []), kept r.2,
          r.1.data.pending, recorded r.2)) = some (true, [], [], [7]) by decide +kernel)
  simp only [Prod.mk.injEq, List.contains_iff_mem] at hval hval'
  obtain ⟨hreturned, hkept, hpending, hrecorded⟩ := hval
  obtain ⟨hreturned', hkept', hpending', hrecorded'⟩ := hval'
  refine ⟨s, log, s', log', hrun, hreturned, ?_, hrun', hreturned', ?_⟩
  · rw [hkept, hpending, hrecorded]
    decide
  · rw [hkept', hpending', hrecorded']
    decide

end IldDrivers.Timestamps
