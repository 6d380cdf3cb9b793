import IldDrivers.Lib.Scan
import IldDrivers.Lib.Transition
import IldDrivers.Proc.Offsets
import Mathlib.Data.PNat.Defs
import Mathlib.Tactic

/-!
# Reading the sum while it changes (`tp-II-03`)

Each `sum_read` formats the sum anew and takes its part of the text from the offset that the reader
has come to, in the texts of earlier values. A reader that reads from offset 0 until 0 is returned
is to hold the text of one value that the sum has had in the meantime.

* `system`: one reader, and writes between its calls;
* `collected`: what the reader holds;
* `Fits`: a call of the reader that delivers nothing which is not in the text of a given value at the
  same place, and meets the end where that text ends;
* `whole_iff_fits`: the reader holds the text of a value exactly when all calls fit one value.
-/

namespace IldDrivers.Proc.TpII03

attribute [local irreducible] cInt

/-! ### The program -/

/-- What the program runs on: the machine, and `sscanf` with `"%d"`, with the value it stores when it
returns 1. -/
structure Setup where
  abi : Abi
  sscanf : List UInt8 → Option ℤ

/-- `sum_write` of these bytes, of which so many can be copied: what it returns, and `_Sum` after it. -/
def sumWrite (sscanf : List UInt8 → Option ℤ) (sum : ℤ) (data : List UInt8) (copied : ℕ) : ℤ × ℤ :=
  if 128 ≤ data.length then (-eNoMem, sum)
  else if data.length - copied ≠ 0 then (-eFault, sum)
  else
    match sscanf (cstring (data ++ [0])) with
    | none => (-eInval, sum)
    | some value => (data.length, cInt (sum + value))

structure State where
  /-- `_Sum`. -/
  sum : ℤ
  /-- The offset of the reader. -/
  offset : ℤ
  /-- The reader has been returned 0. -/
  finished : Bool

inductive Act
  | write (data : List UInt8) (copied : ℕ)
  | read (max : ℕ+) (copied : ℕ) (stack : Memory UInt8)

/-- A call, with the value of the sum when it is made. -/
inductive Record
  | write (sum ret : ℤ)
  | read (sum : ℤ) (reply : Reply)

def step (u : Setup) (s : State) (a : Act) : Option (State × List Record) :=
  if s.finished then none
  else
    match a with
    | .write data copied =>
        let (ret, sum) := sumWrite u.sscanf s.sum data copied
        some ({ s with sum := sum }, [.write s.sum ret])
    | .read max copied stack =>
        let reply := (sumRead u.abi s.sum ⟨s.offset, max, copied, stack⟩).1
        some (⟨s.sum, reply.offset, reply.ret = 0⟩, [.read s.sum reply])

/-- The calls up to the one that returns 0 to the reader. -/
def system (u : Setup) : System State Act Record := ⟨step u⟩

/-- The reader begins while the sum is this `int`. -/
def start (sum : ℤ) : State := ⟨cInt sum, 0, false⟩

/-! ### What is expected -/

def Record.sum : Record → ℤ
  | .write sum _ => sum
  | .read sum _ => sum

/-- As many bytes as the call returns. -/
def Record.bytes : Record → List UInt8
  | .write _ _ => []
  | .read _ reply => reply.bytes.take reply.ret.toNat

/-- What the reader puts together. -/
def collected (log : List Record) : List UInt8 := log.flatMap Record.bytes

/-- What the reader holds is the text of a value that the sum has had at one of the calls. -/
def Whole (log : List Record) : Prop := ∃ r ∈ log, collected log = sumText r.sum

/-- The piece cannot be copied; or the text of `v` has it at the same place, and ends there if it is
empty. -/
def Fits (v : ℤ) (s : State) : Act → Prop
  | .write _ _ => True
  | .read max copied _ =>
      copied < (pieceAt (sumText s.sum) s.offset.toNat max).length ∨
        (pieceAt (sumText s.sum) s.offset.toNat max <+: (sumText v).drop s.offset.toNat ∧
          (pieceAt (sumText s.sum) s.offset.toNat max = [] → s.offset = (sumText v).length))

instance (v : ℤ) (s : State) (a : Act) : Decidable (Fits v s a) :=
  match a with
  | .write _ _ => .isTrue trivial
  | .read _ _ _ => inferInstanceAs (Decidable (_ ∨ (_ ∧ (_ → _))))

/-! ### The calls -/

theorem sumWrite_isInt (sscanf : List UInt8 → Option ℤ) {sum : ℤ} (h : IsInt sum)
    (data : List UInt8) (copied : ℕ) : IsInt (sumWrite sscanf sum data copied).2 := by
  unfold sumWrite
  split_ifs
  · exact h
  · exact h
  · split
    · exact h
    · exact isInt_cInt _

theorem sumText_length_le {sum : ℤ} (h : IsInt sum) : (sumText sum).length ≤ 12 := by
  obtain ⟨hlow, hhigh⟩ := h
  have hdecimal : (decimal sum).length ≤ 11 := decimal_length_le (by decide) (by omega)
  rw [sumText, List.length_append, List.length_singleton]
  omega

/-- A read of the sum. -/
theorem sumRead_eq {sum : ℤ} (h : IsInt sum) (abi : Abi) {o : ℕ} (ho : o ≤ 12) (max copied : ℕ)
    (stack : Memory UInt8) : (sumRead abi sum ⟨o, max, copied, stack⟩).1 =
      if (pieceAt (sumText sum) o max).length ≤ copied then
        ⟨(pieceAt (sumText sum) o max).length, pieceAt (sumText sum) o max,
          o + (pieceAt (sumText sum) o max).length⟩
      else ⟨-eFault, (pieceAt (sumText sum) o max).take copied, o⟩ := by
  have hlength := sumText_length_le h
  exact readText_eq (nulFree_sumText sum) (by omega) (by norm_num) (by omega) max copied stack

/-! ### Every reading -/

/-- What is true whatever is written: the reader has come as far as it has received bytes, in texts
that are not long. -/
structure Kept (s : State) (log : List Record) : Prop where
  isInt : IsInt s.sum
  offset : s.offset = (collected log).length
  small : (collected log).length ≤ 12

/-- The reader holds the beginning of the text of `v`, and all of it in the end. -/
def Begins (v : ℤ) (s : State) (log : List Record) : Prop :=
  collected log <+: sumText v ∧ (s.finished = true → collected log = sumText v)

theorem collected_snoc (log : List Record) (r : Record) :
    collected (log ++ [r]) = collected log ++ r.bytes := by
  simp [collected]

section Steps

variable {u : Setup} {s s' : State} {log out : List Record}

/-- A write changes the sum alone. -/
theorem step_write {data : List UInt8} {copied : ℕ}
    (hstep : step u s (.write data copied) = some (s', out)) :
    s.finished = false ∧ s' = { s with sum := (sumWrite u.sscanf s.sum data copied).2 } ∧
      ∃ ret, out = [.write s.sum ret] := by
  unfold step at hstep
  split_ifs at hstep with hfinished
  cases hstep
  exact ⟨by simpa using hfinished, rfl, _, rfl⟩

/-- A read that fails changes nothing, another one brings the reader forward. -/
theorem step_read {max : ℕ+} {copied : ℕ} {stack : Memory UInt8} {o : ℕ} (hint : IsInt s.sum)
    (hoffset : s.offset = o) (ho : o ≤ 12)
    (hstep : step u s (.read max copied stack) = some (s', out)) :
    s.finished = false ∧ ∃ reply, out = [.read s.sum reply] ∧
      (if (pieceAt (sumText s.sum) o max).length ≤ copied then
        (Record.read s.sum reply).bytes = pieceAt (sumText s.sum) o max ∧
          s' = ⟨s.sum, o + (pieceAt (sumText s.sum) o max).length, pieceAt (sumText s.sum) o max = []⟩
      else (Record.read s.sum reply).bytes = [] ∧ s' = s) := by
  unfold step at hstep
  split_ifs at hstep with hfinished
  have hidle : s.finished = false := by simpa using hfinished
  cases hstep
  refine ⟨hidle, _, rfl, ?_⟩
  rw [hoffset, sumRead_eq hint u.abi ho]
  split_ifs with hcopied
  · simp [Record.bytes]
  · refine ⟨rfl, ?_⟩
    obtain ⟨sum, offset, finished⟩ := s
    cases hoffset
    cases hidle
    rfl

theorem kept_step (hk : Kept s log) {a : Act} (hstep : step u s a = some (s', out)) :
    Kept s' (log ++ out) := by
  obtain ⟨hint, hoffset, hsmall⟩ := hk
  cases a with
  | write data copied =>
    obtain ⟨-, rfl, ret, rfl⟩ := step_write hstep
    have hsame : collected (log ++ [.write s.sum ret]) = collected log := by
      rw [collected_snoc, Record.bytes, List.append_nil]
    exact ⟨sumWrite_isInt u.sscanf hint data copied, by rw [hsame]; exact hoffset,
      by rw [hsame]; exact hsmall⟩
  | read max copied stack =>
    obtain ⟨-, reply, rfl, hread⟩ := step_read hint hoffset hsmall hstep
    have hlength := sumText_length_le hint
    have hpiece := length_pieceAt (sumText s.sum) (collected log).length max
    split_ifs at hread with hcopied
    · obtain ⟨hbytes, rfl⟩ := hread
      refine ⟨hint, ?_, ?_⟩
      · rw [collected_snoc, hbytes, List.length_append, Int.natCast_add]
      · rw [collected_snoc, hbytes, List.length_append]
        omega
    · obtain ⟨hbytes, rfl⟩ := hread
      have hsame : collected (log ++ [.read s'.sum reply]) = collected log := by
        rw [collected_snoc, hbytes, List.append_nil]
      exact ⟨hint, by rw [hsame]; exact hoffset, by rw [hsame]; exact hsmall⟩

/-- The reader loses the text of `v` at a call that does not fit it, and at no other. -/
theorem begins_step {v : ℤ} (hk : Kept s log) {a : Act} (hstep : step u s a = some (s', out)) :
    Begins v s' (log ++ out) ↔ Begins v s log ∧ Fits v s a := by
  obtain ⟨hint, hoffset, hsmall⟩ := hk
  unfold Begins
  cases a with
  | write data copied =>
    obtain ⟨-, rfl, ret, rfl⟩ := step_write hstep
    rw [collected_snoc, Record.bytes, List.append_nil]
    exact (and_iff_left trivial).symm
  | read max copied stack =>
    obtain ⟨hidle, reply, rfl, hread⟩ := step_read hint hoffset hsmall hstep
    have hnot : ¬ s.finished = true := by
      rw [hidle]
      exact Bool.false_ne_true
    simp only [Fits, hoffset, Int.toNat_natCast]
    rw [collected_snoc]
    split_ifs at hread with hcopied
    · obtain ⟨hbytes, rfl⟩ := hread
      rw [hbytes, append_prefix_iff]
      constructor
      · rintro ⟨⟨hbegins, hpiece⟩, hall⟩
        refine ⟨⟨hbegins, fun h => absurd h hnot⟩, .inr ⟨hpiece, fun hnil => ?_⟩⟩
        have hend := hall (decide_eq_true hnil)
        rw [hnil, List.append_nil] at hend
        rw [hend]
      · rintro ⟨⟨hbegins, -⟩, hfault | ⟨hpiece, hend⟩⟩
        · exact absurd hfault (not_lt.2 hcopied)
        · refine ⟨⟨hbegins, hpiece⟩, fun hnil => ?_⟩
          rw [of_decide_eq_true hnil, List.append_nil]
          exact hbegins.eq_of_length (Int.ofNat.inj (hend (of_decide_eq_true hnil)))
    · obtain ⟨hbytes, rfl⟩ := hread
      rw [hbytes, List.append_nil]
      exact (and_iff_left (.inl (not_le.1 hcopied))).symm

end Steps

theorem kept_start (sum : ℤ) : Kept (start sum) [] := ⟨isInt_cInt sum, rfl, Nat.zero_le _⟩

/-- A reader that has been returned 0 holds the text of `v` exactly when its calls fit `v`. -/
theorem collected_iff_fits {u : Setup} (v : ℤ) {sum : ℤ} {acts : List Act} {s : State}
    {log : List Record} (hrun : (system u).exec (start sum) acts = some (s, log))
    (hfinished : s.finished = true) :
    collected log = sumText v ↔ (system u).Along (Fits v) (start sum) acts := by
  have hbegins : Begins v s log ↔ Begins v (start sum) [] ∧
      (system u).Along (Fits v) (start sum) acts :=
    System.iff_along_of_step (I := Kept) (fun _ _ _ _ _ hk hstep => kept_step hk hstep)
      (fun _ _ _ _ _ hk hstep => begins_step hk hstep) (kept_start sum) hrun
  have hstart : Begins v (start sum) [] := ⟨List.nil_prefix, fun h => by cases h⟩
  rw [and_iff_right hstart] at hbegins
  rw [← hbegins]
  exact ⟨fun h => ⟨h ▸ List.prefix_rfl, fun _ => h⟩, fun h => h.2 hfinished⟩

/-- A call fits the value that the sum has. -/
theorem fits_sum {s : State} {log : List Record} (hk : Kept s log) (hbegins : Begins s.sum s log)
    (a : Act) : Fits s.sum s a := by
  cases a with
  | write data copied => trivial
  | read max copied stack =>
    refine .inr ⟨List.take_prefix _ _, fun hnil => ?_⟩
    have hle := hbegins.1.length_le
    have hpiece := length_pieceAt (sumText s.sum) s.offset.toNat max
    have hpos := max.pos
    rw [hnil, List.length_nil] at hpiece
    have hoffset := hk.offset
    omega

/-- A reader during whose calls the sum stays the same holds its text in the end. -/
theorem collected_of_same_sum {u : Setup} {v sum : ℤ} {acts : List Act} {s : State}
    {log : List Record} (hrun : (system u).exec (start sum) acts = some (s, log))
    (hsame : ∀ r ∈ log, r.sum = v) (hfinished : s.finished = true) : collected log = sumText v := by
  have hinv := System.exec_induction
    (I := fun s log => Kept s log ∧ ((∀ r ∈ log, r.sum = v) → Begins v s log))
    (fun t before a t' out hI hstep => ?_)
    ⟨kept_start sum, fun _ => ⟨List.nil_prefix, fun h => by cases h⟩⟩ hrun
  · exact (hinv.2 hsame).2 hfinished
  obtain ⟨hk, hbegins⟩ := hI
  refine ⟨kept_step hk hstep, fun hall => (begins_step hk hstep).2 ?_⟩
  have hbefore := hbegins fun r hr => hall r (List.mem_append_left _ hr)
  refine ⟨hbefore, ?_⟩
  have hsum : t.sum = v := by
    cases a with
    | write data copied =>
      obtain ⟨-, -, ret, rfl⟩ := step_write hstep
      exact hall (.write t.sum ret) (by simp)
    | read max copied stack =>
      obtain ⟨-, reply, rfl, -⟩ := step_read hk.isInt hk.offset hk.small hstep
      exact hall (.read t.sum reply) (by simp)
  subst hsum
  exact fits_sum hk hbefore a

/-- **When the text read is not torn**: a reader begins at offset 0, with the sum at any `int`, and reads
with any positive lengths, between any writes, until 0 is returned to it. It holds the text of a
value that the sum has had during the reading exactly when there is such a value which all the
calls fit. -/
theorem whole_iff_fits {u : Setup} {sum : ℤ} {max : ℕ+} {copied : ℕ} {stack : Memory UInt8}
    {acts : List Act} {s : State} {log : List Record}
    (hrun : (system u).exec (start sum) (.read max copied stack :: acts) = some (s, log))
    (hfinished : s.finished = true) :
    Whole log ↔ ∃ r ∈ log, (system u).Along (Fits r.sum) (start sum)
      (.read max copied stack :: acts) := by
  refine exists_congr fun r => and_congr_right fun _ => ?_
  exact collected_iff_fits r.sum hrun hfinished

/-- A machine of 64 bits, with `sscanf` as the standard describes it. -/
def standard : Setup := ⟨.lp64, fun text => (scanInt text).map Prod.fst⟩

/-- The value 12 is read byte by byte, and becomes 15 after the first byte. -/
def grows : List Act :=
  [.read 1 1 fun _ => 0, .write [51] 1, .read 1 1 fun _ => 0, .read 1 1 fun _ => 0,
    .read 1 1 fun _ => 0]

/-- What has been read is the text of 15, though the sum was 12 at first. -/
theorem whole_iff_fits_grows :
    ∃ s log, (system standard).exec (start 12) grows = some (s, log) ∧
      collected log = [49, 53, 10] ∧ Whole log := by
  obtain ⟨⟨s, log⟩, hrun, hval⟩ := Option.map_eq_some_iff.1
    (show ((system standard).exec (start 12) grows).map
        (fun r => (r.1.finished, collected r.2, r.2.map Record.sum)) =
          some (true, [49, 53, 10], [12, 12, 15, 15, 15]) by decide +kernel)
  simp only [Prod.mk.injEq] at hval
  obtain ⟨hfinished, hcollected, hsums⟩ := hval
  have hmem : (15 : ℤ) ∈ log.map Record.sum := by
    rw [hsums]
    decide
  obtain ⟨r, hr, hsum⟩ := List.mem_map.1 hmem
  have hfits : (system standard).Along (Fits 15) (start 12) grows := by decide +kernel
  exact ⟨s, log, hrun, hcollected, (whole_iff_fits hrun hfinished).2 ⟨r, hr, hsum.symm ▸ hfits⟩⟩

/-- The sum is 5, its digit is read, and 10 is added to it before the reader goes on. -/
def torn : List Act :=
  [.read 1 1 fun _ => 0, .write [49, 48] 2, .read 16 16 fun _ => 0, .read 16 16 fun _ => 0]

theorem collected_not_whole :
    ¬ ∀ (acts : List Act) (s : State) (log : List Record),
      (system standard).exec (start 5) acts = some (s, log) → s.finished = true → Whole log := by
  intro hall
  obtain ⟨⟨s, log⟩, hrun, hval⟩ := Option.map_eq_some_iff.1
    (show ((system standard).exec (start 5) torn).map
        (fun r => (r.1.finished, collected r.2, r.2.map Record.sum)) =
          some (true, [53, 53, 10], [5, 5, 15, 15]) by decide +kernel)
  simp only [Prod.mk.injEq] at hval
  obtain ⟨hfinished, hcollected, hsums⟩ := hval
  obtain ⟨r, hr, htext⟩ := hall torn s log hrun hfinished
  have hsum : r.sum ∈ log.map Record.sum := List.mem_map_of_mem hr
  rw [hcollected] at htext
  rw [hsums] at hsum
  have hnone : ∀ v ∈ [(5 : ℤ), 5, 15, 15], [53, 53, 10] ≠ sumText v := by decide
  exact hnone r.sum hsum htext

end IldDrivers.Proc.TpII03
