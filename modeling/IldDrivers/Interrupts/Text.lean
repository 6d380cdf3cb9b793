import IldDrivers.Interrupts.Programs
import IldDrivers.Lib.Scan

/-!
# The text of a time (`example-V-07` to `example-V-10`)

`jiffies` is an `unsigned long`, and `snprintf` prints it with `%ld`.

* `parseText`: an unsigned decimal number, as the text of a time should be;
* `parseText_kBuffer_iff`: the times whose text is the time;
* `texts_faithful_iff`: the same for all that is read in a run.
-/

namespace IldDrivers.Timestamps

/-- An unsigned decimal number, `\n` and the NUL. -/
def parseText (text : List UInt8) : Option ℕ :=
  let digits := text.takeWhile isDigitByte
  if digits ≠ [] ∧ text.dropWhile isDigitByte = [10, 0] then some (digitsVal digits) else none

/-! ### One time -/

section Time

variable {abi : Abi} {value : ℕ}

theorem parseText_decimal {x : ℤ} (hx : 0 ≤ x) : parseText (decimal x ++ [10, 0]) = some x.natAbs := by
  have hdigits : ∀ b ∈ (Nat.toDigits 10 x.natAbs).map Char.toUInt8, isDigitByte b = true :=
    fun b hb => isDigitByte_of_mem_toDigits hb
  have hne : (Nat.toDigits 10 x.natAbs).map Char.toUInt8 ≠ [] := by
    simp
  have hrest : NoDigitHead [10, 0] := by
    intro b hb
    cases hb
    decide
  obtain ⟨htake, hdrop⟩ := takeWhile_digits hdigits hrest
  rw [decimal, if_neg (by omega), List.nil_append, parseText, htake, hdrop,
    digitsVal_toDigits, if_pos ⟨hne, rfl⟩]

/-- A sign is not a digit. -/
theorem parseText_decimal_neg {x : ℤ} (hx : x < 0) : parseText (decimal x ++ [10, 0]) = none := by
  rw [decimal, if_pos hx, List.append_assoc, List.singleton_append, parseText,
    List.takeWhile_cons_of_neg (by decide)]
  exact if_neg fun h => h.1 rfl

/-- Half of the values of an `unsigned long` are those of a `long`. -/
theorem ssize_nonneg_iff (hvalue : value < 2 ^ abi.longBits) :
    (0 ≤ abi.ssize value ↔ value < 2 ^ (abi.longBits - 1)) ∧
      (value < 2 ^ (abi.longBits - 1) → abi.ssize value = value) := by
  have hmod : (value : ℤ) % 2 ^ abi.longBits = value := by
    refine Int.emod_eq_of_lt (Int.natCast_nonneg _) ?_
    exact_mod_cast hvalue
  unfold Abi.ssize
  rw [Int.bmod_eq_emod]
  push_cast
  rw [hmod]
  cases abi with
  | ilp32 =>
    simp only [Abi.longBits] at hvalue ⊢
    norm_num at hvalue ⊢
    constructor
    · split_ifs <;> omega
    · intro hsmall
      rw [if_neg (by omega)]
      omega
  | lp64 =>
    simp only [Abi.longBits] at hvalue ⊢
    norm_num at hvalue ⊢
    constructor
    · split_ifs <;> omega
    · intro hsmall
      rw [if_neg (by omega)]
      omega

theorem kBuffer_eq (abi : Abi) (value : ℕ) : kBuffer abi value = decimal (abi.ssize value) ++ [10] := by
  have hbound : (abi.ssize value).natAbs < 10 ^ 20 := by
    have hle := Int.le_bmod (x := value) (show 0 < 2 ^ abi.longBits from Nat.two_pow_pos _)
    have hlt := Int.bmod_lt (x := value) (show 0 < 2 ^ abi.longBits from Nat.two_pow_pos _)
    unfold Abi.ssize
    cases abi with
    | ilp32 =>
      simp only [Abi.longBits] at hle hlt ⊢
      norm_num at hle hlt ⊢
      omega
    | lp64 =>
      simp only [Abi.longBits] at hle hlt ⊢
      norm_num at hle hlt ⊢
      omega
  have hlength := decimal_length_le (by decide) hbound
  refine List.take_of_length_le ?_
  rw [List.length_append, List.length_singleton]
  omega

/-- **The text of a time** is the time, as an unsigned number, exactly for those in the lower half. -/
theorem parseText_kBuffer_iff (hvalue : value < 2 ^ abi.longBits) :
    parseText (kBuffer abi value ++ [0]) = some value ↔ value < 2 ^ (abi.longBits - 1) := by
  obtain ⟨hnonneg, hsame⟩ := ssize_nonneg_iff hvalue
  have htext : kBuffer abi value ++ [0] = decimal (abi.ssize value) ++ [10, 0] := by
    rw [kBuffer_eq, List.append_assoc]
    rfl
  rw [htext, ← hnonneg]
  constructor
  · intro h
    by_contra hneg
    rw [parseText_decimal_neg (not_le.1 hneg)] at h
    cases h
  · intro h
    rw [parseText_decimal h, hsame (hnonneg.1 h), Int.natAbs_natCast]

end Time

/-! ### What is read -/

variable {Pid : Type*} [DecidableEq Pid]

/-- A call that had taken the time has returned this text. -/
def Answers (log : List (Event Pid)) (value : ℕ) (user : List UInt8) : Prop :=
  ∃ before p ret after, log = before ++ .returned p ret user :: after ∧ 0 < ret ∧
    takenBy p before = some value

/-- What is returned is the text of a time that has been recorded. -/
def Texted (abi : Abi) (before : List (Event Pid)) : Event Pid → Prop
  | .returned p ret user => 0 < ret → ∃ value, takenBy p before = some value ∧
      value ∈ recorded before ∧ user = kBuffer abi value ++ [0]
  | _ => True

/-- The invariant: times fit in an `unsigned long`, and what has been returned are their texts. -/
structure Timed (g : Program) (abi : Abi) (s : State Pid) (log : List (Event Pid)) : Prop where
  told : Told g abi s log
  jiffies : s.jiffies < 2 ^ abi.longBits
  recorded : ∀ value ∈ recorded log, value < 2 ^ abi.longBits
  texted : History.EachAfter (Texted abi) log

section Runs

variable {g : Program} {abi : Abi} {s s' : State Pid} {log out : List (Event Pid)}

/-- A call in progress has a time that has been recorded. -/
theorem Told.mem_recorded (ht : Told g abi s log) {p : Pid} {value : ℕ}
    (hp : (s.proc p).taken = some value) : value ∈ recorded log := by
  have hheld : (some p, value) ∈ (holdings log).filter fun x => x.1 = some p := by
    rw [ht.holding p, hp]
    exact List.mem_singleton_self _
  have hkept : value ∈ kept log := List.mem_map.2 ⟨_, (List.mem_filter.1 hheld).1, rfl⟩
  rw [← ht.queued.removed_append]
  exact List.mem_append_left _ (ht.kept_sublist.subset hkept)

/-- A step with an event that records nothing. -/
theorem Timed.snoc (ht : Timed g abi s log) {e : Event Pid} (htold : Told g abi s' (log ++ [e]))
    (hjiffies : s'.jiffies = s.jiffies) (hrecorded : Timestamps.recorded [e] = [])
    (he : Texted abi log e) : Timed g abi s' (log ++ [e]) where
  told := htold
  jiffies := hjiffies ▸ ht.jiffies
  recorded := by
    rw [recorded_append, hrecorded, List.append_nil]
    exact ht.recorded
  texted := History.eachAfter_snoc.2 ⟨ht.texted, he⟩

theorem timed_move {act : Act Pid} (ht : Timed g abi s log) (hmove : Move g abi s act s' out) :
    Timed g abi s' (log ++ out) := by
  have htold := told_move ht.told hmove
  cases hmove with
  | quiet hact hdata htaken hargs hjiffies =>
    rw [List.append_nil] at htold ⊢
    exact ⟨htold, hjiffies ht.jiffies, ht.recorded, ht.texted⟩
  | record hp hroom =>
    refine ⟨htold, ht.jiffies, fun value hvalue => ?_, History.eachAfter_snoc.2 ⟨ht.texted, trivial⟩⟩
    rw [recorded_append] at hvalue
    rcases List.mem_append.1 hvalue with hold | hnew
    · exact ht.recorded value hold
    · obtain rfl : value = s.jiffies := by simpa [recorded] using hnew
      exact ht.jiffies
  | drop hp hfull => exact ht.snoc htold rfl rfl trivial
  | remove hp hsome hroom => exact ht.snoc htold rfl rfl trivial
  | refuse hact hp hpc hret =>
    exact ht.snoc htold rfl rfl fun hpos => absurd hret (not_le.2 hpos)
  | @finish p a value hp =>
    have htaken : (s.proc p).taken = some value := by
      rw [hp]
      rfl
    refine ht.snoc htold rfl rfl fun hpos =>
      ⟨value, ?_, ht.told.mem_recorded htaken, deliver_text hpos⟩
    rw [ht.told.takenBy p, htaken]

theorem timed_exec {array : Memory ℕ} {jiffies : ℕ} (hjiffies : jiffies < 2 ^ abi.longBits)
    {acts : List (Act Pid)}
    (hrun : (g.system abi Pid).exec (init Pid array jiffies) acts = some (s, log)) :
    Timed g abi s log := by
  refine System.exec_induction (I := Timed g abi)
    (fun _ _ _ _ _ ht hstep => timed_move ht (move_of_step hstep)) ?_ hrun
  exact ⟨told_init g abi array jiffies, hjiffies, by simp [recorded], History.eachAfter_nil⟩

/-- What is read is the text of a time that has been recorded. -/
theorem Timed.answers (ht : Timed g abi s log) {value : ℕ} {user : List UInt8}
    (h : Answers log value user) :
    value ∈ Timestamps.recorded log ∧ user = kBuffer abi value ++ [0] := by
  obtain ⟨before, p, ret, after, hlog, hpos, htaken⟩ := h
  obtain ⟨value', htaken', hmem, huser⟩ := ht.texted before _ after hlog hpos
  rw [htaken] at htaken'
  cases htaken'
  refine ⟨?_, huser⟩
  rw [hlog, recorded_append]
  exact List.mem_append_left _ hmem

/-- **The text of what is read**: in every run, from any time that fits in an `unsigned long`, each text
that is read, taken as an unsigned number, is the time that it stands for exactly when the times
that are read are in the lower half of the `unsigned long`s; and when the times have been recorded in
increasing order, they are taken out in increasing order. -/
theorem texts_faithful_iff {array : Memory ℕ} {jiffies : ℕ} (hjiffies : jiffies < 2 ^ abi.longBits)
    {acts : List (Act Pid)}
    (hrun : (g.system abi Pid).exec (init Pid array jiffies) acts = some (s, log)) :
    ((∀ value user, Answers log value user → parseText user = some value) ↔
        ∀ value user, Answers log value user → value < 2 ^ (abi.longBits - 1)) ∧
      ((recorded log).Pairwise (· < ·) → (removed log).Pairwise (· < ·)) := by
  have ht := timed_exec hjiffies hrun
  constructor
  · refine forall₃_congr fun value user hanswers => ?_
    obtain ⟨hmem, rfl⟩ := ht.answers hanswers
    exact parseText_kBuffer_iff (ht.recorded value hmem)
  · rw [← ht.told.queued.removed_append]
    exact fun h => h.sublist (List.sublist_append_left _ _)

end Runs

/-- Two interrupts, one `jiffy` apart, and two calls of `read`. -/
def readTwice : List (Act Bool) :=
  [.interrupt false, .run false, .run false, .tick, .interrupt false, .run false, .run false,
    .read true ⟨false, 16, 16⟩, .run true, .run true, .read true ⟨false, 16, 16⟩, .run true,
    .run true]

/-- The times 7 and 8. -/
def lowLog : List (Event Bool) :=
  [.recorded 7, .recorded 8, .removed true 7, .returned true 3 [55, 10, 0], .removed true 8,
    .returned true 3 [56, 10, 0]]

theorem texts_faithful_iff_low :
    ∃ s log, (Program.v10.system .ilp32 Bool).exec (init Bool (fun _ => 0) 7) readTwice =
        some (s, log) ∧
      Answers log 8 [56, 10, 0] ∧ ∀ value user, Answers log value user → parseText user = some value := by
  obtain ⟨⟨s, log⟩, hrun, rfl⟩ := Option.map_eq_some_iff.1
    (show ((Program.v10.system .ilp32 Bool).exec (init Bool (fun _ => 0) 7) readTwice).map
        (fun r => r.2) = some lowLog by decide +kernel)
  refine ⟨s, lowLog, hrun, ⟨lowLog.take 5, true, 3, [], rfl, by decide, rfl⟩, ?_⟩
  have hjiffies : 7 < 2 ^ Abi.ilp32.longBits := by norm_num [Abi.longBits]
  refine (texts_faithful_iff hjiffies hrun).1.2 fun value user hanswers => ?_
  have hmem := ((timed_exec hjiffies hrun).answers hanswers).1
  have hsmall : value = 7 ∨ value = 8 := by simpa [recorded, lowLog] using hmem
  simp only [Abi.longBits]
  omega

/-- The last time of the lower half and the first of the upper half, on a machine of 32 bits:
`2147483647` and `-2147483648`. -/
def highLog : List (Event Bool) :=
  [.recorded 2147483647, .recorded 2147483648, .removed true 2147483647,
    .returned true 12 [50, 49, 52, 55, 52, 56, 51, 54, 52, 55, 10, 0], .removed true 2147483648,
    .returned true 13 [45, 50, 49, 52, 55, 52, 56, 51, 54, 52, 56, 10, 0]]

/-- The second text is not that of an unsigned number, and as a signed one it comes before the
first. -/
theorem upper_half_negative :
    ∃ s log user, (Program.v10.system .ilp32 Bool).exec (init Bool (fun _ => 0) 2147483647) readTwice =
        some (s, log) ∧
      recorded log = [2147483647, 2147483648] ∧ Answers log 2147483648 user ∧
      scanInt user = some (-2147483648, [10, 0]) ∧ ¬ parseText user = some 2147483648 := by
  obtain ⟨⟨s, log⟩, hrun, rfl⟩ := Option.map_eq_some_iff.1
    (show ((Program.v10.system .ilp32 Bool).exec (init Bool (fun _ => 0) 2147483647) readTwice).map
        (fun r => r.2) = some highLog by decide +kernel)
  refine ⟨s, highLog, _, hrun, rfl, ⟨highLog.take 5, true, 13, [], rfl, by decide, rfl⟩, ?_, ?_⟩
  · decide +kernel
  · decide +kernel

end IldDrivers.Timestamps
