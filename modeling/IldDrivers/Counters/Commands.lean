import IldDrivers.Counters.Reading
import IldDrivers.Proc.Values

/-!
# Commands on a counter (`tp-IV-03`, `set-step`)

A user works on the counter of `tp-IV-03` by programs that run one after the other: one that copies the
device to its output and stops at the first read that does not return anything, one that writes a
number, and `set-step`, which sets the step to its argument.

* `setStep`: the `main` of `set-step`;
* `system`: the commands on the driver, with any lengths of the reads and any failures;
* `Does`: what a command is to do, in terms of the counter and its step alone;
* `commands_do`: this is what each command of every session does.
-/

namespace IldDrivers.Counters.Commands

open Ioctl

attribute [local irreducible] cInt

/-! ### The programs -/

/-- `COUNTER_SET_STEP`. -/
def counterSetStep : ℕ := iow counterIoctlMagic setStepCommand 4

/-- `main` of `set-step`: `argv`, what `open` returns, and the driver; with the driver after it and the
status it exits with. -/
def setStep (sscanf : List UInt8 → Option ℤ) (s : TpIV03.State) (argv : List (List UInt8)) (fd : ℤ) :
    TpIV03.State × ℤ :=
  match argv with
  | _ :: _ :: text :: _ =>
      if fd < 0 then (s, 1)
      else
        match sscanf text with
        | none => (s, 1)
        -- a message if the `ioctl` fails, and the same status
        | some step => ((TpIV03.counterIoctl s ⟨counterSetStep, leBytes 4 step⟩).1, 0)
  | _ => (s, 1)

/-- What the programs run on: also `sscanf` of the user with `"%d"`, with the `int` it stores when it
returns 1. -/
structure Setup where
  abi : Abi
  sscanf : List UInt8 → Option ℤ

inductive Command
  /-- Read a new file to its end, or until a read fails or the program is stopped. -/
  | cat (reads : List Reading.Act)
  /-- Write this number and a newline; whether there is memory, and how much can be copied. -/
  | echo (x : ℤ) (kmalloc : Bool) (copied : ℕ)
  | setStep (argv : List (List UInt8)) (fd : ℤ)

inductive Output
  /-- The bytes printed, and whether the last read has returned 0. -/
  | printed (text : List UInt8) (finished : Bool)
  | returned (ret : ℤ)
  | exited (status : ℤ)
  deriving DecidableEq

/-- The last read has returned 0. -/
def finished (log : List Reply) : Bool := log.getLast?.any fun r => r.ret = 0

def step (u : Setup) (s : TpIV03.State) : Command → Option (TpIV03.State × List Output)
  | .cat reads =>
      ((Reading.system ⟨.tpIV03 s.counterStep, u.abi⟩).exec ⟨s.counter, 0⟩ reads).bind
        fun (t, log) =>
          if ∀ r ∈ log.dropLast, 0 < r.ret then
            some (⟨t.counter, s.counterStep⟩, [.printed (Reading.collected log) (finished log)])
          else none
  | .echo x kmalloc copied =>
      let (t, reply) := TpIV03.counterWrite kstrtoint s ⟨decimal x ++ [10], kmalloc, copied⟩
      some (t, [.returned reply.ret])
  | .setStep argv fd =>
      let (t, status) := setStep u.sscanf s argv fd
      some (t, [.exited status])

def system (u : Setup) : System TpIV03.State Command Output := ⟨step u⟩

/-! ### What is expected -/

/-- The argument of `set-step`, if it comes to set the step. -/
def stepArgument (sscanf : List UInt8 → Option ℤ) (argv : List (List UInt8)) (fd : ℤ) : Option ℤ :=
  if fd < 0 then none else argv[2]?.bind sscanf

/-- What a command does: a line that is read to its end makes the counter advance, and one that is not
leaves it; a number is written or not; the step is set or not. -/
inductive Does (u : Setup) : TpIV03.State → Command → Output → TpIV03.State → Prop
  | whole {counter counterStep : ℤ} {reads : List Reading.Act} :
      Does u ⟨counter, counterStep⟩ (.cat reads) (.printed (counterText counter) true)
        ⟨cInt (counter + counterStep), counterStep⟩
  | part {s : TpIV03.State} {reads : List Reading.Act} {text : List UInt8}
      (h : text <+: counterText s.counter) : Does u s (.cat reads) (.printed text false) s
  | written {counter counterStep x : ℤ} {copied : ℕ} :
      Does u ⟨counter, counterStep⟩ (.echo x true copied) (.returned (decimal x ++ [10]).length)
        ⟨x, counterStep⟩
  | notWritten {s : TpIV03.State} {x ret : ℤ} {kmalloc : Bool} {copied : ℕ} (h : ret < 0) :
      Does u s (.echo x kmalloc copied) (.returned ret) s
  | stepSet {counter counterStep x : ℤ} {argv : List (List UInt8)} {fd : ℤ}
      (h : stepArgument u.sscanf argv fd = some x) :
      Does u ⟨counter, counterStep⟩ (.setStep argv fd) (.exited 0) ⟨counter, x⟩
  | stepKept {s : TpIV03.State} {argv : List (List UInt8)} {fd : ℤ}
      (h : stepArgument u.sscanf argv fd = none) : Does u s (.setStep argv fd) (.exited 1) s

/-- A session: each command does what it is to do, from where the one before has left the counter. -/
inductive Session (u : Setup) : TpIV03.State → List Command → List Output → TpIV03.State → Prop
  | nil {s : TpIV03.State} : Session u s [] [] s
  | cons {s t t' : TpIV03.State} {c : Command} {cs : List Command} {o : Output} {os : List Output}
      (h : Does u s c o t) (hrest : Session u t cs os t') : Session u s (c :: cs) (o :: os) t'

/-- Numbers that can be written and set are `int`s. -/
def Command.IsInt : Command → Prop
  | .echo x _ _ => IldDrivers.IsInt x
  | _ => True

/-- The user's `sscanf` stores an `int`. -/
def ScansInts (sscanf : List UInt8 → Option ℤ) : Prop := ∀ text x, sscanf text = some x → IsInt x

/-! ### One program -/

/-- A number with a newline behind is read by `kstrtoint`. -/
theorem kstrtoint_decimal {x : ℤ} (hx : IsInt x) : kstrtoint (decimal x ++ [10]) = some x := by
  have hdigits : ∀ b ∈ (Nat.toDigits 10 x.natAbs).map Char.toUInt8, isDigitByte b = true :=
    fun b hb => isDigitByte_of_mem_toDigits hb
  have hval := digitsVal_toDigits x.natAbs
  have hne : (Nat.toDigits 10 x.natAbs).map Char.toUInt8 ≠ [] := by
    simp
  unfold kstrtoint decimal
  revert hdigits hval hne
  generalize (Nat.toDigits 10 x.natAbs).map Char.toUInt8 = digits
  intro hdigits hval hne
  have hsign : scanSign ((if x < 0 then [45] else []) ++ digits ++ [10]) =
      (if x < 0 then -1 else 1, digits ++ [10]) := by
    split_ifs with hx
    · rfl
    · obtain ⟨b, l, rfl⟩ := List.exists_cons_of_ne_nil hne
      exact scanSign_digit (hdigits b List.mem_cons_self) _
  have hvalue : (if x < 0 then -1 else 1) * (digitsVal digits : ℤ) = x := by
    rw [hval]
    split_ifs <;> omega
  have hall : digits.all isDigitByte = true := List.all_eq_true.2 hdigits
  have hlast : (digits ++ [10]).getLast? = some 10 := by simp
  have hdrop : (digits ++ [10]).dropLast = digits := List.dropLast_concat
  simp only [hsign, hlast, if_true, hdrop, hvalue]
  exact if_pos ⟨hne, hall, hx.1, hx.2⟩

/-- `set-step` sets the step if it comes to that. -/
theorem setStep_eq {sscanf : List UInt8 → Option ℤ} (hsscanf : ScansInts sscanf) (s : TpIV03.State)
    (argv : List (List UInt8)) (fd : ℤ) :
    setStep sscanf s argv fd =
      (stepArgument sscanf argv fd).elim (s, 1) fun x => (⟨s.counter, x⟩, 0) := by
  have htype : iocType counterSetStep = counterIoctlMagic := iocType_ioc (by decide) (by decide)
  have hnr : iocNr counterSetStep = setStepCommand := iocNr_ioc (by decide)
  match argv with
  | [] => simp [setStep, stepArgument]
  | [_] => simp [setStep, stepArgument]
  | [_, _] => simp [setStep, stepArgument]
  | _ :: _ :: text :: _ =>
    by_cases hfd : fd < 0
    · simp [setStep, stepArgument, hfd]
    · cases hscanned : sscanf text with
      | none => simp [setStep, stepArgument, hfd, hscanned]
      | some x =>
        have hcall := TpIV03.counterIoctl_set s (a := ⟨counterSetStep, leBytes 4 x⟩) htype hnr
        simp [setStep, stepArgument, hfd, hscanned, hcall, copiedBytes_leBytes,
          intOfBytes_leBytes (hsscanf text x hscanned)]

section OneProgram

open Reading

variable {u : Reading.Setup} {c : ℤ} {s : Reading.State} {log : List Reply}

theorem zeros_eq_zero (h : ∀ r ∈ log, 0 < r.ret) : zeros log = 0 := by
  refine List.countP_eq_zero.2 fun r hr => ?_
  have hpos := h r hr
  simpa using hpos.ne'

theorem finished_snoc (log : List Reply) (r : Reply) :
    finished (log ++ [r]) = decide (r.ret = 0) := by
  simp [finished]

/-- What has been read before a read that does not return anything is the beginning of the line, and all
of it if that read returns 0. -/
theorem read_line (hc : IsInt c) {reads : List Reading.Act}
    (hrun : (Reading.system u).exec ⟨c, 0⟩ reads = some (s, log)) :
    Kept u c s log ∧ ((∀ r ∈ log.dropLast, 0 < r.ret) →
      collected log <+: counterText c ∧ (finished log → collected log = counterText c)) := by
  refine System.exec_induction (S := Reading.system u)
    (I := fun s log => Kept u c s log ∧ ((∀ r ∈ log.dropLast, 0 < r.ret) →
      collected log <+: counterText c ∧ (finished log → collected log = counterText c)))
    ?_ ?_ hrun
  · intro t before a t' out hI hstep
    obtain ⟨hk, hbefore⟩ := hI
    have hk' := kept_step hc hk hstep
    refine ⟨hk', ?_⟩
    obtain ⟨r, rfl, hcase⟩ := step_cases hk.isInt hk.offset hk.small hstep
    rw [List.dropLast_concat]
    intro hpos
    -- so far, no read has returned 0
    have hbegins := (hbefore fun r hr => hpos r (List.dropLast_subset before hr)).1
    have hcounter : t.counter = c := by
      rw [hk.counter, zeros_eq_zero hpos, Nat.cast_zero, zero_mul, add_zero, hc.cInt_eq]
    have hfits : NotLonger c t a := by
      rcases lt_or_ge t.offset (counterText c).length with hlt | hle
      · exact .inl hlt
      · exact .inr (.inl (by rw [hcounter]; exact hle))
    have hbegins' := (prefix_step hc hk hstep).2 ⟨hbegins, hfits⟩
    refine ⟨hbegins', fun hend => ?_⟩
    rw [finished_snoc, decide_eq_true_eq] at hend
    cases hcase with
    | ended hle =>
      rw [hcounter] at hle
      rw [collected_snoc, List.take_nil, List.append_nil]
      exact hbegins.eq_of_length (le_antisymm hbegins.length_le hle)
    | returned hlt hcopied hne =>
      exact absurd (List.length_eq_zero_iff.1 (Int.ofNat.inj hend)) hne
    | failed hlt hcopied text => exact absurd hend (show -eFault ≠ 0 by decide)
  · refine ⟨⟨hc, rfl, Nat.zero_le _, by simp [zeros, hc.cInt_eq], .inl rfl⟩, fun _ => ?_⟩
    exact ⟨List.nil_prefix, fun h => by cases h⟩

/-- How often 0 has been returned. -/
theorem zeros_eq (h : ∀ r ∈ log.dropLast, 0 < r.ret) :
    zeros log = if finished log then 1 else 0 := by
  rcases List.eq_nil_or_concat log with rfl | ⟨before, r, rfl⟩
  · rfl
  · rw [List.concat_eq_append] at h ⊢
    rw [List.dropLast_concat] at h
    rw [zeros_snoc, zeros_eq_zero h, finished_snoc, Nat.zero_add]
    by_cases hr : r.ret = 0 <;> simp [hr]

end OneProgram

/-! ### Sessions -/

section Sessions

variable {u : Setup} {s s' : TpIV03.State} {cmds : List Command} {outs : List Output}

/-- The counter is an `int`, and so is what a command makes of it. -/
theorem does_step (hsscanf : ScansInts u.sscanf) (hs : IsInt s.counter) {cmd : Command}
    (hcmd : cmd.IsInt) (hstep : step u s cmd = some (s', outs)) :
    IsInt s'.counter ∧ ∃ o, outs = [o] ∧ Does u s cmd o s' := by
  cases cmd with
  | cat reads =>
    obtain ⟨⟨t, log⟩, hrun, hif⟩ := Option.bind_eq_some_iff.1 hstep
    obtain ⟨hk, hline⟩ := read_line hs hrun
    simp only at hif
    split_ifs at hif with hpos
    cases hif
    obtain ⟨hbegins, hwhole⟩ := hline hpos
    have hcounter := hk.counter
    rw [zeros_eq hpos] at hcounter
    refine ⟨hk.isInt, _, rfl, ?_⟩
    cases hend : finished log with
    | true =>
      simp only [hend, if_true, Nat.cast_one, one_mul] at hcounter
      rw [hwhole hend, hcounter]
      exact .whole
    | false =>
      simp only [hend, Bool.false_eq_true, if_false, Nat.cast_zero, zero_mul, add_zero,
        hs.cInt_eq] at hcounter
      rw [hcounter]
      exact .part hbegins
  | echo x kmalloc copied =>
    have hnul : NulFree (decimal x ++ [10]) := (nulFree_decimal x).append (by decide)
    have hread : kstrtoint (cstring (decimal x ++ [10] ++ [0])) = some x := by
      rw [cstring_append_nul hnul []]
      exact kstrtoint_decimal hcmd
    simp only [step, TpIV03.counterWrite, writeCall] at hstep
    split_ifs at hstep with hmemory hfault
    · cases hstep
      exact ⟨hs, _, rfl, .notWritten (show -eFault < 0 by decide)⟩
    · rw [hread] at hstep
      cases hstep
      subst hmemory
      refine ⟨isInt_cInt x, _, rfl, ?_⟩
      rw [Option.elim_some, IsInt.cInt_eq hcmd]
      exact .written
    · cases hstep
      exact ⟨hs, _, rfl, .notWritten (show -eNoMem < 0 by decide)⟩
  | setStep argv fd =>
    simp only [step, setStep_eq hsscanf] at hstep
    cases harg : stepArgument u.sscanf argv fd with
    | none =>
      rw [harg] at hstep
      cases hstep
      exact ⟨hs, _, rfl, .stepKept harg⟩
    | some x =>
      rw [harg] at hstep
      cases hstep
      exact ⟨hs, _, rfl, .stepSet harg⟩

/-- **Sessions**: whatever the commands, the lengths of the reads, the failures of memory and copies and
the arguments of `set-step`, each command of a session does what it is to do to a counter with a
step. -/
theorem commands_do (hsscanf : ScansInts u.sscanf) (hs : IsInt s.counter)
    (hcmds : ∀ cmd ∈ cmds, cmd.IsInt) (hrun : (system u).exec s cmds = some (s', outs)) :
    Session u s cmds outs s' := by
  induction cmds generalizing s outs with
  | nil =>
    cases hrun
    exact .nil
  | cons cmd cmds ih =>
    obtain ⟨t, out, outs, hstep, hrest, rfl⟩ := System.exec_cons.1 hrun
    obtain ⟨ht, o, rfl, hdoes⟩ := does_step hsscanf hs (hcmds cmd List.mem_cons_self) hstep
    exact .cons hdoes (ih ht (fun c hc => hcmds c (List.mem_cons_of_mem _ hc)) hrest)

end Sessions

/-! ### An example -/

/-- A machine of 64 bits, with a `sscanf` that keeps the low bits of what does not fit. -/
def standard : Setup := ⟨.lp64, fun text => (scanInt text).map fun r => cInt r.1⟩

theorem standard_scansInts : ScansInts standard.sscanf := by
  intro text x h
  obtain ⟨r, -, rfl⟩ := Option.map_eq_some_iff.1 h
  exact isInt_cInt r.1

/-- The line is read to its end, in two reads. -/
def catAll : Command := .cat [Reading.readAll, Reading.readAll]

/-- `set-step counter 3`, `echo 5 > counter`, `cat counter` twice, and `set-step counter x`. -/
def threeByThree : List Command :=
  [.setStep [[115], [99], [51]] 3, .echo 5 true 2, catAll, catAll, .setStep [[115], [99], [120]] 3]

theorem commands_do_threeByThree :
    ∃ s, (system standard).exec TpIV03.init threeByThree =
        some (s, [.exited 0, .returned 2, .printed (counterText 5) true,
          .printed (counterText 8) true, .exited 1]) ∧
      Session standard TpIV03.init threeByThree
        [.exited 0, .returned 2, .printed (counterText 5) true, .printed (counterText 8) true,
          .exited 1] s := by
  obtain ⟨⟨s, outs⟩, hrun, rfl⟩ := Option.map_eq_some_iff.1
    (show ((system standard).exec TpIV03.init threeByThree).map Prod.snd =
      some [.exited 0, .returned 2, .printed (counterText 5) true, .printed (counterText 8) true,
        .exited 1] by decide +kernel)
  have hcmds : ∀ cmd ∈ threeByThree, cmd.IsInt := by
    simp [threeByThree, catAll, Command.IsInt, IsInt]
  exact ⟨s, hrun, commands_do standard_scansInts ⟨by decide, by decide⟩ hcmds hrun⟩

end IldDrivers.Counters.Commands
