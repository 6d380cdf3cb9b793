import IldDrivers.Kernel
import IldDrivers.Lib.Decimal
import IldDrivers.Lib.Pieces
import Mathlib.Tactic

/-!
# Offsets handled by hand (`example-II-04`, `example-II-05`, `tp-II-03`)

A file under `/proc` is a text that is formatted anew by each read. `example-II-04` and `tp-II-03`
compute themselves what a read is to be given of it, from its offset; `example-II-05` leaves that to
`simple_read_from_buffer`.

* `readText`: the read of the first two, for a buffer of any size and any text;
* `Documented`: what the documentation of `simple_read_from_buffer` says of it;
* `Near`: the offsets that are not so far past the end that their distance from it, in an `int`, is
  negative;
* `agrees_iff_near`: the reads that agree with `simple_read_from_buffer` are those at these offsets.
-/

namespace IldDrivers.Proc

/-! ### The reads -/

/-- A read: `*offset`, the length, how many bytes can be copied, and the stack of the call, with the
buffer of the function at address 0. -/
structure ReadArgs where
  offset : ℤ
  max : ℕ
  copied : ℕ
  stack : Memory UInt8

/-- What a read returns, the bytes it delivers, and `*offset` after it. -/
structure Reply where
  ret : ℤ
  bytes : List UInt8
  offset : ℤ
  deriving DecidableEq

/-- The bytes that `copy_to_user` is asked to copy: the address of the first, and their number. -/
structure Source where
  addr : ℤ
  count : ℕ

/-- The stack after `snprintf` to a buffer of this size. -/
def snprintf (stack : Memory UInt8) (size : ℕ) (text : List UInt8) : Memory UInt8 :=
  stack.store 0 (text.take (size - 1) ++ [0])

/-- `strlen` of the buffer. -/
def strlen (stack : Memory UInt8) (size : ℕ) : ℕ := (cstring (stack.load 0 size)).length

/-- What the reads do with the string in their buffer, which has this length. -/
def readRest (buffer : Memory UInt8) (length : ℕ) (abi : Abi) (a : ReadArgs) : Reply × Source :=
  let nb := cInt (length - a.offset)
  if nb ≤ 0 then (⟨0, [], a.offset⟩, ⟨0, 0⟩)
  else
    let nb := if (a.max : ℤ) < nb then (a.max : ℤ) else nb
    let source : Source := ⟨abi.ssize a.offset, nb.toNat⟩
    let (bytes, left) := copyToUser (buffer.load source.addr source.count) a.copied
    if left ≠ 0 then (⟨-eFault, bytes, a.offset⟩, source)
    else (⟨nb, bytes, a.offset + nb⟩, source)

/-- A read of a text that is formatted in a buffer of this size. -/
def readText (size : ℕ) (text : List UInt8) (abi : Abi) (a : ReadArgs) : Reply × Source :=
  let buffer := snprintf a.stack size text
  readRest buffer (strlen buffer size) abi a

/-- `current`, as far as it is shown. -/
structure Task where
  pid : ℤ
  parentPid : ℤ
  comm : List UInt8

/-- `"PID=%u, PPID=%u, Command=%s\n"`. -/
def Task.text (t : Task) : List UInt8 :=
  [80, 73, 68, 61] ++ decimal (t.pid % 2 ^ 32) ++ [44, 32, 80, 80, 73, 68, 61] ++
    decimal (t.parentPid % 2 ^ 32) ++ [44, 32, 67, 111, 109, 109, 97, 110, 100, 61] ++
    cstring t.comm ++ [10]

/-- `"%d\n"`. -/
def sumText (sum : ℤ) : List UInt8 := decimal sum ++ [10]

/-- `simple_read_from_buffer`, of the kernel: the memory, `from` being address 0, the number of bytes
available there, and the read. -/
abbrev SimpleRead := Memory UInt8 → ℕ → ReadArgs → Reply

/-- `example_read` of `example-II-04`. -/
def ExampleII04.exampleRead (abi : Abi) (t : Task) (a : ReadArgs) : Reply × Source :=
  readText 128 t.text abi a

/-- `example_read` of `example-II-05`. -/
def ExampleII05.exampleRead (simpleReadFromBuffer : SimpleRead) (t : Task) (a : ReadArgs) : Reply :=
  let kBuffer := snprintf a.stack 128 t.text
  let nb := cInt (strlen kBuffer 128)
  simpleReadFromBuffer kBuffer nb.toNat a

/-- `sum_read` of `tp-II-03`. -/
def TpII03.sumRead (abi : Abi) (sum : ℤ) (a : ReadArgs) : Reply × Source :=
  readText 32 (sumText sum) abi a

/-! ### What is expected -/

/-- At an offset that is not negative, and if all of the user's buffer can be written,
`simple_read_from_buffer` copies what is available from the offset on, but not more than is asked
for, returns the number of bytes and adds it to the offset. -/
def Documented (simpleReadFromBuffer : SimpleRead) : Prop :=
  ∀ (m : Memory UInt8) (available : ℕ) (a : ReadArgs), 0 ≤ a.offset → a.max ≤ a.copied →
    simpleReadFromBuffer m available a =
      ⟨(min a.max (available - a.offset.toNat) : ℕ),
        m.load a.offset (min a.max (available - a.offset.toNat)),
        a.offset + (min a.max (available - a.offset.toNat) : ℕ)⟩

/-- Nothing is copied from outside a buffer of this size. -/
def Source.Inside (s : Source) (size : ℕ) : Prop :=
  s.count = 0 ∨ (0 ≤ s.addr ∧ s.addr + s.count ≤ size)

/-- A read that is to give the same as another, from inside its buffer. -/
def Agrees (size : ℕ) (r : Reply × Source) (r' : Reply) : Prop := r.1 = r' ∧ r.2.Inside size

/-- Nothing is asked for, or the offset is not past the end of a text of this length, or its distance
from it is at most `2 ^ 31`, apart from multiples of `2 ^ 32`. -/
def Near (length : ℕ) (a : ReadArgs) : Prop :=
  a.max = 0 ∨ a.offset ≤ length ∨ (a.offset - length) % 2 ^ 32 ≤ 2 ^ 31

/-! ### The buffer -/

section Buffer

variable {size : ℕ} {text : List UInt8} (stack : Memory UInt8)

theorem take_length_lt (hsize : 0 < size) (text : List UInt8) :
    (text.take (size - 1)).length < size := by
  rw [List.length_take]
  omega

theorem snprintf_isPrefix (text : List UInt8) (hsize : 0 < size) :
    text.take (size - 1) ++ [0] <+: (snprintf stack size text).load 0 size := by
  have hlt := take_length_lt hsize text
  refine Memory.isPrefix_load_store stack 0 ?_
  rw [List.length_append]
  exact hlt

/-- The string in the buffer is the text, cut off if it does not fit. -/
theorem cstring_snprintf (htext : NulFree text) (hsize : 0 < size) :
    cstring ((snprintf stack size text).load 0 size) = text.take (size - 1) := by
  have htake : NulFree (text.take (size - 1)) := fun b hb => htext b (List.mem_of_mem_take hb)
  exact cstring_of_isPrefix htake (snprintf_isPrefix stack text hsize)

theorem strlen_snprintf (htext : NulFree text) (hsize : 0 < size) :
    strlen (snprintf stack size text) size = (text.take (size - 1)).length :=
  congrArg List.length (cstring_snprintf stack htext hsize)

/-- A part of the string. -/
theorem load_snprintf (hsize : 0 < size) {o n : ℕ} (h : o + n ≤ (text.take (size - 1)).length) :
    (snprintf stack size text).load o n = ((text.take (size - 1)).drop o).take n := by
  have hbegins := (List.prefix_append _ [0]).trans (snprintf_isPrefix stack text hsize)
  rw [← Memory.load_part hbegins h, Int.zero_add]

end Buffer

theorem nulFree_sumText (sum : ℤ) : NulFree (sumText sum) :=
  (nulFree_decimal sum).append (by decide)

theorem Task.nulFree_text (t : Task) : NulFree t.text := by
  unfold Task.text
  refine NulFree.append (NulFree.append (NulFree.append (NulFree.append (NulFree.append
    (NulFree.append ?_ ?_) ?_) ?_) ?_) ?_) ?_
  · decide
  · exact nulFree_decimal _
  · decide
  · exact nulFree_decimal _
  · decide
  · exact nulFree_cstring _
  · decide

/-! ### The distance from the end -/

theorem cInt_nonpos_iff {length : ℕ} {offset : ℤ} (hlength : (length : ℤ) < 2 ^ 31)
    (hoffset : 0 ≤ offset) : cInt (length - offset) ≤ 0 ↔
      offset = length ∨ ((length : ℤ) < offset ∧ (offset - length) % 2 ^ 32 ≤ 2 ^ 31) := by
  rw [cInt_eq]
  split_ifs <;> omega

section Agreement

variable {buffer : Memory UInt8} {size length : ℕ} {text : List UInt8} {abi : Abi} {a : ReadArgs}
  {simple : SimpleRead}

/-- A read before the end of the text. -/
theorem readRest_before (hlength : (length : ℤ) < 2 ^ 31) {o : ℕ} (hoffset : a.offset = o)
    (hlt : o < length) :
    readRest buffer length abi a =
      (if min a.max (length - o) ≤ a.copied then
        ⟨(min a.max (length - o) : ℕ), buffer.load o (min a.max (length - o)),
          o + (min a.max (length - o) : ℕ)⟩
      else ⟨-eFault, (buffer.load o (min a.max (length - o))).take a.copied, o⟩,
        ⟨o, min a.max (length - o)⟩) := by
  have hnb : cInt (length - a.offset) = ((length - o : ℕ) : ℤ) := by
    rw [cInt_of_small (by omega) (by omega), hoffset]
    omega
  have hmin : (if (a.max : ℤ) < ((length - o : ℕ) : ℤ) then (a.max : ℤ)
      else ((length - o : ℕ) : ℤ)) = (min a.max (length - o) : ℕ) := by
    split_ifs <;> omega
  have haddr : abi.ssize a.offset = o := by
    rw [hoffset]
    exact abi.ssize_of_small (by omega) (by omega)
  simp only [readRest, hnb, hmin, haddr, Int.toNat_natCast, copyToUser, Memory.load_length]
  rw [if_neg (by omega), hoffset]
  by_cases hcopied : min a.max (length - o) ≤ a.copied
  · rw [if_neg (by omega), if_pos hcopied,
      List.take_of_length_le (by rw [Memory.load_length]; exact hcopied)]
  · rw [if_pos (by omega), if_neg hcopied]

/-- A read at the end or past it, if the distance is not positive in an `int`. -/
theorem readRest_past (h : cInt (length - a.offset) ≤ 0) :
    readRest buffer length abi a = (⟨0, [], a.offset⟩, ⟨0, 0⟩) := if_pos h

/-- A read of a text that fits into its buffer, at an offset that fits into an `int`. -/
theorem readText_eq (htext : NulFree text) (hlt : text.length < size) (hsize : (size : ℤ) < 2 ^ 31)
    {o : ℕ} (ho : (o : ℤ) < 2 ^ 31) (max copied : ℕ) (stack : Memory UInt8) :
    (readText size text abi ⟨o, max, copied, stack⟩).1 =
      if (pieceAt text o max).length ≤ copied then
        ⟨(pieceAt text o max).length, pieceAt text o max, o + (pieceAt text o max).length⟩
      else ⟨-eFault, (pieceAt text o max).take copied, o⟩ := by
  have hpos : 0 < size := Nat.zero_lt_of_lt hlt
  have hwhole : text.take (size - 1) = text := List.take_of_length_le (by omega)
  have hpiece := length_pieceAt text o max
  rw [readText, strlen_snprintf stack htext hpos, hwhole]
  by_cases hend : text.length ≤ o
  · have hnil : pieceAt text o max = [] := List.length_eq_zero_iff.1 (by omega)
    have hpast : cInt (text.length - (o : ℤ)) ≤ 0 := by
      rw [cInt_of_small (by omega) (by omega)]
      omega
    rw [readRest_past (a := ⟨o, max, copied, stack⟩) hpast, hnil]
    simp
  · have hload : (snprintf stack size text).load o (pieceAt text o max).length =
        pieceAt text o max := by
      rw [load_snprintf stack hpos (by rw [hwhole]; omega), hwhole, hpiece, ← List.length_drop,
        ← List.take_take, List.take_length]
      rfl
    rw [readRest_before (a := ⟨o, max, copied, stack⟩) (by omega) rfl (not_le.1 hend), ← hpiece, hload]

/-- A read of nothing. -/
theorem readRest_nothing (hmax : a.max = 0) :
    (readRest buffer length abi a).1 = ⟨0, [], a.offset⟩ ∧
      (readRest buffer length abi a).2.count = 0 := by
  unfold readRest
  by_cases hnb : cInt (length - a.offset) ≤ 0
  · simp only [if_pos hnb]
    trivial
  · have hlt : 0 < cInt (length - a.offset) := not_le.1 hnb
    simp [hmax, hnb, hlt, copyToUser, Memory.load]

/-- Past the end, if the distance is positive in an `int`, the read does not return 0. -/
theorem readRest_far (h : ¬ cInt (length - a.offset) ≤ 0) (hmax : a.max ≠ 0) :
    (readRest buffer length abi a).1.ret ≠ 0 := by
  simp only [readRest, if_neg h]
  have hfault : -eFault ≠ 0 := by decide
  split_ifs with hlt hleft hleft
  · exact hfault
  · exact Int.natCast_ne_zero.2 hmax
  · exact hfault
  · exact fun hzero => h (le_of_eq hzero)

theorem Documented.before (hdoc : Documented simple) (hwritable : a.max ≤ a.copied) {o : ℕ}
    (hoffset : a.offset = o) : simple buffer length a =
      ⟨(min a.max (length - o) : ℕ), buffer.load o (min a.max (length - o)),
        o + (min a.max (length - o) : ℕ)⟩ := by
  rw [hdoc buffer length a (by omega) hwritable, hoffset, Int.toNat_natCast]

theorem Documented.nothing (hdoc : Documented simple) (hwritable : a.max ≤ a.copied)
    (hoffset : 0 ≤ a.offset) (h : a.max = 0 ∨ (length : ℤ) ≤ a.offset) :
    simple buffer length a = ⟨0, [], a.offset⟩ := by
  have hmin : min a.max (length - a.offset.toNat) = 0 := by omega
  rw [hdoc buffer length a hoffset hwritable, hmin]
  simp [Memory.load]

/-- The read agrees with `simple_read_from_buffer` at the offsets that are near, and at no other. -/
theorem readRest_agrees_iff (hdoc : Documented simple) (hlength : length ≤ size)
    (hsize : (size : ℤ) < 2 ^ 31) (hoffset : 0 ≤ a.offset) (hwritable : a.max ≤ a.copied) :
    Agrees size (readRest buffer length abi a) (simple buffer length a) ↔ Near length a := by
  have hsmall : (length : ℤ) < 2 ^ 31 := by omega
  have hnonpos := cInt_nonpos_iff hsmall hoffset
  unfold Agrees
  by_cases hmax : a.max = 0
  · obtain ⟨hreply, hcount⟩ : (readRest buffer length abi a).1 = ⟨0, [], a.offset⟩ ∧
        (readRest buffer length abi a).2.count = 0 := readRest_nothing hmax
    rw [hreply, hdoc.nothing hwritable hoffset (.inl hmax)]
    exact iff_of_true ⟨rfl, .inl hcount⟩ (.inl hmax)
  by_cases hbefore : a.offset < length
  · obtain ⟨o, ho⟩ := Int.eq_ofNat_of_zero_le hoffset
    rw [readRest_before hsmall ho (by omega), if_pos (by omega), hdoc.before hwritable ho]
    refine iff_of_true ⟨rfl, .inr ⟨Int.natCast_nonneg o, ?_⟩⟩ (.inr (.inl hbefore.le))
    show (o : ℤ) + (min a.max (length - o) : ℕ) ≤ size
    omega
  rw [hdoc.nothing hwritable hoffset (.inr (not_lt.1 hbefore))]
  by_cases hnb : cInt (length - a.offset) ≤ 0
  · rw [readRest_past hnb]
    refine iff_of_true ⟨rfl, .inl rfl⟩ ?_
    rcases hnonpos.1 hnb with heq | ⟨-, hnear⟩
    · exact .inr (.inl heq.le)
    · exact .inr (.inr hnear)
  · refine iff_of_false (fun h => readRest_far hnb hmax (congrArg Reply.ret h.1)) ?_
    rintro (hzero | hle | hnear)
    · exact hmax hzero
    · exact hnb (hnonpos.2 (.inl (by omega)))
    · by_cases heq : a.offset = length
      · exact hnb (hnonpos.2 (.inl heq))
      · exact hnb (hnonpos.2 (.inr ⟨by omega, hnear⟩))

/-- The same for the read of a text, which may be cut off. -/
theorem readText_agrees_iff (hdoc : Documented simple) (htext : NulFree text) (hsize : 0 < size)
    (hsmall : (size : ℤ) < 2 ^ 31) (hoffset : 0 ≤ a.offset) (hwritable : a.max ≤ a.copied) :
    Agrees size (readText size text abi a)
        (simple (snprintf a.stack size text) (text.take (size - 1)).length a) ↔
      Near (text.take (size - 1)).length a := by
  rw [readText, strlen_snprintf a.stack htext hsize]
  exact readRest_agrees_iff hdoc (take_length_lt hsize text).le hsmall hoffset hwritable

end Agreement

/-! ### The programs -/

section Programs

variable {simpleReadFromBuffer : SimpleRead} {a : ReadArgs}

theorem exampleRead_agrees_iff (hdoc : Documented simpleReadFromBuffer) (abi : Abi) (t : Task)
    (hoffset : 0 ≤ a.offset) (hwritable : a.max ≤ a.copied) :
    Agrees 128 (ExampleII04.exampleRead abi t a)
        (ExampleII05.exampleRead simpleReadFromBuffer t a) ↔
      Near (t.text.take 127).length a := by
  have hlt : (t.text.take 127).length < 128 := take_length_lt (show 0 < 128 by decide) t.text
  have hnb : (cInt ((t.text.take 127).length : ℕ)).toNat = (t.text.take 127).length := by
    rw [cInt_of_small (by omega) (by omega), Int.toNat_natCast]
  rw [ExampleII04.exampleRead, ExampleII05.exampleRead,
    strlen_snprintf a.stack t.nulFree_text (by decide), hnb]
  exact readText_agrees_iff hdoc t.nulFree_text (by decide) (by norm_num) hoffset hwritable

theorem sumRead_agrees_iff (hdoc : Documented simpleReadFromBuffer) (abi : Abi) (sum : ℤ)
    (hoffset : 0 ≤ a.offset) (hwritable : a.max ≤ a.copied) :
    Agrees 32 (TpII03.sumRead abi sum a)
        (simpleReadFromBuffer (snprintf a.stack 32 (sumText sum))
          (strlen (snprintf a.stack 32 (sumText sum)) 32) a) ↔
      Near ((sumText sum).take 31).length a := by
  rw [TpII03.sumRead, strlen_snprintf a.stack (nulFree_sumText sum) (by decide)]
  exact readText_agrees_iff hdoc (nulFree_sumText sum) (by decide) (by norm_num) hoffset hwritable

/-- **The offsets that are handled well**: for every task, every sum, every offset that is not negative
and every user's buffer that can be written, `example-II-04` agrees with `example-II-05`, and
`tp-II-03` with `simple_read_from_buffer`, exactly when the offset is near: nothing is asked for, or it
is not past the end of the text, or its distance from the end, modulo `2 ^ 32`, is at most `2 ^ 31`. -/
theorem agrees_iff_near (hdoc : Documented simpleReadFromBuffer) (abi : Abi) (t : Task) (sum : ℤ)
    (hoffset : 0 ≤ a.offset) (hwritable : a.max ≤ a.copied) :
    (Agrees 128 (ExampleII04.exampleRead abi t a)
        (ExampleII05.exampleRead simpleReadFromBuffer t a) ↔
      Near (t.text.take 127).length a) ∧
    (Agrees 32 (TpII03.sumRead abi sum a)
        (simpleReadFromBuffer (snprintf a.stack 32 (sumText sum))
          (strlen (snprintf a.stack 32 (sumText sum)) 32) a) ↔
      Near ((sumText sum).take 31).length a) :=
  ⟨exampleRead_agrees_iff hdoc abi t hoffset hwritable,
    sumRead_agrees_iff hdoc abi sum hoffset hwritable⟩

end Programs

/-- The function of the kernel, where part of the bytes may be copied. -/
def simpleReadFromBuffer : SimpleRead := fun m available a =>
  if a.offset < 0 then ⟨-eInval, [], a.offset⟩
  else if (available : ℤ) ≤ a.offset ∨ a.max = 0 then ⟨0, [], a.offset⟩
  else
    let count := min a.max (available - a.offset.toNat)
    let (bytes, left) := copyToUser (m.load a.offset count) a.copied
    if left = count then ⟨-eFault, bytes, a.offset⟩
    else ⟨(count - left : ℕ), bytes, a.offset + (count - left : ℕ)⟩

theorem simpleReadFromBuffer_documented : Documented simpleReadFromBuffer := by
  intro m available a hoffset hwritable
  have hcopied : min a.max (available - a.offset.toNat) ≤ a.copied := by omega
  unfold simpleReadFromBuffer
  rw [if_neg (not_lt.2 hoffset)]
  split_ifs with hnone
  · have hmin : min a.max (available - a.offset.toNat) = 0 := by omega
    simp [hmin, Memory.load]
  · have hpos : min a.max (available - a.offset.toNat) ≠ 0 := by omega
    have hall : (m.load a.offset (min a.max (available - a.offset.toNat))).length ≤ a.copied := by
      rw [Memory.load_length]
      exact hcopied
    simp only [copyToUser, Memory.load_length, Nat.sub_eq_zero_of_le hcopied,
      List.take_of_length_le hall, hpos.symm, if_false, Nat.sub_zero]

/-- The first process. -/
def initTask : Task := ⟨1, 0, [105, 110, 105, 116, 0]⟩

/-- A read of 16 bytes at offset 4, within both texts. -/
theorem agrees_iff_near_initTask :
    Agrees 128 (ExampleII04.exampleRead .lp64 initTask ⟨4, 16, 16, fun _ => 0⟩)
        (ExampleII05.exampleRead simpleReadFromBuffer initTask ⟨4, 16, 16, fun _ => 0⟩) ∧
      Agrees 32 (TpII03.sumRead .lp64 12345 ⟨4, 16, 16, fun _ => 0⟩)
        (simpleReadFromBuffer (snprintf (fun _ => 0) 32 (sumText 12345))
          (strlen (snprintf (fun _ => 0) 32 (sumText 12345)) 32) ⟨4, 16, 16, fun _ => 0⟩) := by
  have hnear := agrees_iff_near simpleReadFromBuffer_documented .lp64 initTask 12345
    (a := ⟨4, 16, 16, fun _ => 0⟩) (by decide) le_rfl
  rw [show (initTask.text.take 127).length = 28 by decide,
    show ((sumText 12345).take 31).length = 6 by decide] at hnear
  exact ⟨hnear.1.2 (.inr (.inl (by decide))), hnear.2.2 (.inr (.inl (by decide)))⟩

/-- The offset `2 ^ 32`, which one `lseek` or `pread` reaches, is taken for the beginning of the
text. -/
theorem beyond_int_not_agreeing :
    ¬ ∀ (abi : Abi) (t : Task) (a : ReadArgs), 0 ≤ a.offset → a.offset < 2 ^ 63 →
      a.max ≤ a.copied → Agrees 128 (ExampleII04.exampleRead abi t a)
        (ExampleII05.exampleRead simpleReadFromBuffer t a) := by
  intro hall
  have hagrees := hall .lp64 initTask ⟨2 ^ 32, 16, 16, fun _ => 0⟩ (by norm_num) (by norm_num) le_rfl
  have hnear := (exampleRead_agrees_iff simpleReadFromBuffer_documented .lp64 initTask (by norm_num)
    le_rfl).1 hagrees
  rw [show (initTask.text.take 127).length = 28 by decide] at hnear
  rcases hnear with hmax | hle | hdistance
  · cases hmax
  · norm_num at hle
  · norm_num at hdistance

end IldDrivers.Proc
