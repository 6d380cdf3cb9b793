import IldDrivers.Ioctl.Flags
import IldDrivers.Proc.Sums

/-!
# Complete readings (`example-II-04` to `tp-II-03`, `example-IV-05`, `example-IV-06`)

Seven programs answer a read with a text that is formatted anew, from the task that makes the call
and from a value that a `write` or an `ioctl` may have changed. Three of them see to the offset
themselves, the others leave it to `simple_read_from_buffer`.

* `Program`: the seven programs, each with the text, the read and the changes of its source;
* `Serves`: a read that gives a piece of a text, or fails and leaves the offset where it is;
* `system`: any number of open files, read by any tasks, between any changes of the value;
* `reading_of_one_text`: a file in which all reads have found one text has been given a beginning of it,
  all of it once 0 is returned, and 0 is returned before long.
-/

namespace IldDrivers.Proc

open Ioctl

attribute [local irreducible] cInt

/-! ### The programs -/

/-- `"PID=%u, PPID=%u, Command=%s, Value=%d\n"`. -/
def ExampleII06.text (t : Task) (exampleValue : ℤ) : List UInt8 :=
  [80, 73, 68, 61] ++ decimal (t.pid % 2 ^ 32) ++ [44, 32, 80, 80, 73, 68, 61] ++
    decimal (t.parentPid % 2 ^ 32) ++ [44, 32, 67, 111, 109, 109, 97, 110, 100, 61] ++
    cstring t.comm ++ [44, 32, 86, 97, 108, 117, 101, 61] ++ decimal exampleValue ++ [10]

/-- `example_read` of `example-II-06`. -/
def ExampleII06.exampleRead (simpleReadFromBuffer : SimpleRead) (exampleValue : ℤ) (t : Task)
    (a : ReadArgs) : Reply :=
  let kBuffer := snprintf a.stack 128 (text t exampleValue)
  let nb := cInt (strlen kBuffer 128)
  simpleReadFromBuffer kBuffer nb.toNat a

/-- `example_write` of `example-II-06`: what it returns, and `example_value` after it. -/
def ExampleII06.exampleWrite (sscanf : List UInt8 → Option ℤ) (exampleValue : ℤ)
    (data : List UInt8) (copied : ℕ) : ℤ × ℤ :=
  if 128 ≤ data.length then (-eNoMem, exampleValue)
  else if data.length - copied ≠ 0 then (-eFault, exampleValue)
  else
    match sscanf (cstring (data ++ [0])) with
    | none => (-eInval, exampleValue)
    | some value => (data.length, cInt value)

/-- `"PID=%u, PPID=%u\n"`. -/
def ExampleIV05.text (t : Task) : List UInt8 :=
  [80, 73, 68, 61] ++ decimal (t.pid % 2 ^ 32) ++ [44, 32, 80, 80, 73, 68, 61] ++
    decimal (t.parentPid % 2 ^ 32) ++ [10]

/-- `example_read` of `example-IV-05`. -/
def ExampleIV05.exampleRead (simpleReadFromBuffer : SimpleRead) (t : Task) (a : ReadArgs) : Reply :=
  let kBuffer := snprintf a.stack 128 (text t)
  simpleReadFromBuffer kBuffer (strlen kBuffer 128) a

/-- `"PID= %u, PPID= %u\n"`, or `"PID= %u\n"` if the flag is 0. -/
def ExampleIV06.text (t : Task) (examplePpidFlag : ℤ) : List UInt8 :=
  if examplePpidFlag ≠ 0 then
    [80, 73, 68, 61, 32] ++ decimal (t.pid % 2 ^ 32) ++ [44, 32, 80, 80, 73, 68, 61, 32] ++
      decimal (t.parentPid % 2 ^ 32) ++ [10]
  else [80, 73, 68, 61, 32] ++ decimal (t.pid % 2 ^ 32) ++ [10]

/-- `example_read` of `example-IV-06`. -/
def ExampleIV06.exampleRead (simpleReadFromBuffer : SimpleRead) (examplePpidFlag : ℤ) (t : Task)
    (a : ReadArgs) : Reply :=
  let kBuffer := snprintf a.stack 128 (text t examplePpidFlag)
  simpleReadFromBuffer kBuffer (strlen kBuffer 128) a

/-- `"%u\n"`. -/
def TpII02.text (t : Task) : List UInt8 := decimal (t.pid % 2 ^ 32) ++ [10]

/-- `pid_read` of `tp-II-02`. -/
def TpII02.pidRead (abi : Abi) (t : Task) (a : ReadArgs) : Reply × Source := readText 32 (text t) abi a

namespace Readings

/-- What the programs run on: the machine, `sscanf` with `"%d"`, with the value it stores when it
returns 1, and `simple_read_from_buffer`. -/
structure Setup where
  abi : Abi
  sscanf : List UInt8 → Option ℤ
  simpleReadFromBuffer : SimpleRead

inductive Program
  | exampleII04
  | exampleII05
  | exampleII06
  | exampleIV05
  | exampleIV06
  | tpII02
  | tpII03
  deriving DecidableEq

/-- A call that may change the value. -/
inductive Change
  | write (data : List UInt8) (copied : ℕ)
  | ioctl (a : Ioctl.Args)

namespace Program

/-- What is formatted for a task, with the value that the program has. -/
def text : Program → Task → ℤ → List UInt8
  | exampleII04, t, _ => t.text
  | exampleII05, t, _ => t.text
  | exampleII06, t, exampleValue => ExampleII06.text t exampleValue
  | exampleIV05, t, _ => ExampleIV05.text t
  | exampleIV06, t, examplePpidFlag => ExampleIV06.text t examplePpidFlag
  | tpII02, t, _ => TpII02.text t
  | tpII03, _, sum => sumText sum

/-- The size of the buffer on the stack. -/
def size : Program → ℕ
  | tpII02 => 32
  | tpII03 => 32
  | _ => 128

/-- What there is to be read. -/
def shown (p : Program) (t : Task) (value : ℤ) : List UInt8 := (p.text t value).take (p.size - 1)

def read (u : Setup) : Program → Task → ℤ → ReadArgs → Reply
  | exampleII04, t, _, a => (ExampleII04.exampleRead u.abi t a).1
  | exampleII05, t, _, a => ExampleII05.exampleRead u.simpleReadFromBuffer t a
  | exampleII06, t, exampleValue, a =>
      ExampleII06.exampleRead u.simpleReadFromBuffer exampleValue t a
  | exampleIV05, t, _, a => ExampleIV05.exampleRead u.simpleReadFromBuffer t a
  | exampleIV06, t, examplePpidFlag, a =>
      ExampleIV06.exampleRead u.simpleReadFromBuffer examplePpidFlag t a
  | tpII02, t, _, a => (TpII02.pidRead u.abi t a).1
  | tpII03, _, sum, a => (TpII03.sumRead u.abi sum a).1

/-- What a call returns and the value after it, if the program has the callback. -/
def change (u : Setup) : Program → ℤ → Change → Option (ℤ × ℤ)
  | exampleII06, exampleValue, .write data copied =>
      some (ExampleII06.exampleWrite u.sscanf exampleValue data copied)
  | tpII03, sum, .write data copied => some (TpII03.sumWrite u.sscanf sum data copied)
  | exampleIV06, examplePpidFlag, .ioctl a =>
      let (flag, reply) := ExampleIV06.ioctl examplePpidFlag a
      some (reply.ret, flag)
  | _, _, _ => none

end Program

/-- The files are known by an `F`. -/
structure State (F : Type*) where
  value : ℤ
  offset : F → ℤ

inductive Act (F : Type*)
  | read (f : F) (current : Task) (max : ℕ+) (copied : ℕ) (stack : Memory UInt8)
  | change (c : Change)

/-- A read: what there was to be read, the offset it has started at, and what it has got. -/
structure Found where
  text : List UInt8
  offset : ℤ
  reply : Reply
  deriving DecidableEq

/-- A read of a file, or what a change has returned. -/
inductive Record (F : Type*)
  | read (f : F) (found : Found)
  | change (ret : ℤ)

variable {F : Type*} [DecidableEq F]

def step (u : Setup) (p : Program) (s : State F) : Act F → Option (State F × List (Record F))
  | .read f current max copied stack =>
      let reply := p.read u current s.value ⟨s.offset f, max, copied, stack⟩
      some (⟨s.value, Function.update s.offset f reply.offset⟩,
        [.read f ⟨p.shown current s.value, s.offset f, reply⟩])
  | .change c => (p.change u s.value c).map fun (ret, value) => ({ s with value }, [.change ret])

/-- The calls of any tasks, one after the other. -/
def system (F : Type*) [DecidableEq F] (u : Setup) (p : Program) :
    System (State F) (Act F) (Record F) := ⟨step u p⟩

/-- All files are newly opened. -/
def start (F : Type*) (value : ℤ) : State F := ⟨value, fun _ => 0⟩

/-! ### What is expected -/

/-- A read from offset `o` on is given a piece of the text, which is empty only if nothing is left, and
the offset moves past it; or it fails, and the offset stays. -/
def Serves (text : List UInt8) (o max : ℕ) (r : Reply) : Prop :=
  (r.ret < 0 ∧ r.offset = o) ∨
    ∃ piece, piece <+: pieceAt text o max ∧ (piece = [] → pieceAt text o max = []) ∧
      r.ret = piece.length ∧ r.bytes.take piece.length = piece ∧ r.offset = o + piece.length

/-- `simple_read_from_buffer` serves what is available, also where part of it cannot be copied. -/
def Contract (simpleReadFromBuffer : SimpleRead) : Prop :=
  ∀ (m : Memory UInt8) (available o max copied : ℕ) (stack : Memory UInt8),
    Serves (m.load 0 available) o max (simpleReadFromBuffer m available ⟨o, max, copied, stack⟩)

/-- The read, if it is one of this file. -/
def Record.found (f : F) : Record F → Option Found
  | .read g found => if g = f then some found else none
  | .change _ => none

/-- The reads of a file. -/
def reads (f : F) (log : List (Record F)) : List Found := log.filterMap (Record.found f)

/-- What a read has brought, unless it has failed. -/
def Found.piece (r : Found) : Option (Piece UInt8) :=
  if 0 ≤ r.reply.ret then some ⟨r.offset.toNat, r.reply.bytes.take r.reply.ret.toNat⟩ else none

def pieces (rs : List Found) : List (Piece UInt8) := rs.filterMap Found.piece

/-- One of the reads has returned 0. -/
def Finished (rs : List Found) : Prop := ∃ r ∈ rs, r.reply.ret = 0

instance (rs : List Found) : Decidable (Finished rs) := inferInstanceAs (Decidable (∃ r ∈ rs, _))

/-! ### The texts -/

theorem nulFree_append {l m : List UInt8} : NulFree (l ++ m) ↔ NulFree l ∧ NulFree m :=
  List.forall_mem_append

theorem Program.nulFree_text (p : Program) (t : Task) (value : ℤ) : NulFree (p.text t value) := by
  have hnumber := nulFree_decimal
  have hcomm := nulFree_cstring t.comm
  cases p with
  | exampleII04 => exact t.nulFree_text
  | exampleII05 => exact t.nulFree_text
  | exampleII06 =>
    simp only [text, ExampleII06.text, nulFree_append, hnumber, hcomm]
    decide
  | exampleIV05 =>
    simp only [text, ExampleIV05.text, nulFree_append, hnumber]
    decide
  | exampleIV06 =>
    simp only [text, ExampleIV06.text]
    split_ifs
    all_goals
      simp only [nulFree_append, hnumber]
      decide
  | tpII02 =>
    simp only [text, TpII02.text, nulFree_append, hnumber]
    decide
  | tpII03 => exact nulFree_sumText value

theorem Program.size_pos (p : Program) : 0 < p.size := by cases p <;> decide

theorem Program.size_le (p : Program) : p.size ≤ 128 := by cases p <;> decide

theorem Program.length_shown_lt (p : Program) (t : Task) (value : ℤ) :
    (p.shown t value).length < 128 :=
  (take_length_lt p.size_pos (p.text t value)).trans_le p.size_le

/-! ### The reads -/

section Reads

variable {size o max copied : ℕ} {text : List UInt8} {simple : SimpleRead}

theorem Serves.nothing (hend : text.length ≤ o) : Serves text o max ⟨0, [], o⟩ := by
  have hnil : pieceAt text o max = [] := by
    rw [pieceAt, List.drop_of_length_le hend, List.take_nil]
  exact .inr ⟨[], List.nil_prefix, fun _ => hnil, rfl, rfl, (Int.add_zero _).symm⟩

/-- A read that sees to the offset itself. -/
theorem readText_serves (htext : NulFree text) (hsize : 0 < size) (hsmall : (size : ℤ) < 2 ^ 31)
    (ho : (o : ℤ) < 2 ^ 31) (max copied : ℕ) (abi : Abi) (stack : Memory UInt8) :
    Serves (text.take (size - 1)) o max (readText size text abi ⟨o, max, copied, stack⟩).1 := by
  have hlt := take_length_lt hsize text
  rw [readText, strlen_snprintf stack htext hsize]
  by_cases hend : (text.take (size - 1)).length ≤ o
  · have hpast : cInt ((text.take (size - 1)).length - (o : ℤ)) ≤ 0 := by
      rw [cInt_of_small (by omega) (by omega)]
      omega
    rw [readRest_past (a := ⟨o, max, copied, stack⟩) hpast]
    exact Serves.nothing hend
  · rw [readRest_before (a := ⟨o, max, copied, stack⟩) (by omega) rfl (not_le.1 hend)]
    split_ifs with hcopied
    · have hlength := length_pieceAt (text.take (size - 1)) o max
      have hload : (snprintf stack size text).load o (pieceAt (text.take (size - 1)) o max).length =
          pieceAt (text.take (size - 1)) o max := by
        rw [load_snprintf stack hsize (by rw [hlength]; omega)]
        have hbegins := pieceAt_prefix (text.take (size - 1)) o max
        exact (List.prefix_iff_eq_take.1 hbegins).symm
      dsimp only
      rw [← hlength, hload]
      exact .inr ⟨_, List.prefix_rfl, id, rfl, List.take_length, rfl⟩
    · exact .inl ⟨by simp only [eFault]; omega, rfl⟩

/-- A read that leaves the offset to `simple_read_from_buffer`. -/
theorem Contract.serves (hsimple : Contract simple) (htext : NulFree text) (o max copied : ℕ)
    (stack : Memory UInt8) :
    Serves (text.take 127) o max (simple (snprintf stack 128 text)
      (strlen (snprintf stack 128 text) 128) ⟨o, max, copied, stack⟩) := by
  have hload : (snprintf stack 128 text).load 0 (text.take 127).length = text.take 127 := by
    have hpart := load_snprintf (o := 0) (n := (text.take 127).length) stack (show 0 < 128 by decide)
      (by rw [Nat.zero_add])
    rwa [List.drop_zero, List.take_length] at hpart
  have hserves := hsimple (snprintf stack 128 text) (text.take 127).length o max copied stack
  rw [hload] at hserves
  rwa [strlen_snprintf stack htext (by decide)]

/-- The same with the length in an `int`. -/
theorem Contract.serves_int (hsimple : Contract simple) (htext : NulFree text) (o max copied : ℕ)
    (stack : Memory UInt8) :
    Serves (text.take 127) o max (simple (snprintf stack 128 text)
      (cInt (strlen (snprintf stack 128 text) 128)).toNat ⟨o, max, copied, stack⟩) := by
  have hlt : (text.take 127).length < 128 := take_length_lt (show 0 < 128 by decide) text
  have hstrlen : strlen (snprintf stack 128 text) 128 = (text.take 127).length :=
    strlen_snprintf stack htext (by decide)
  have hint : (cInt (strlen (snprintf stack 128 text) 128)).toNat =
      strlen (snprintf stack 128 text) 128 := by
    rw [cInt_of_small (by omega) (by omega), Int.toNat_natCast]
  rw [hint]
  exact hsimple.serves htext o max copied stack

end Reads

/-- Each program serves what it shows. -/
theorem Program.read_serves {u : Setup} (hsimple : Contract u.simpleReadFromBuffer) (p : Program)
    (t : Task) (value : ℤ) {o : ℕ} (ho : (o : ℤ) < 2 ^ 31) (max copied : ℕ) (stack : Memory UInt8) :
    Serves (p.shown t value) o max (p.read u t value ⟨o, max, copied, stack⟩) := by
  have htext := p.nulFree_text t value
  have hsize := p.size_pos
  have hsmall : (p.size : ℤ) < 2 ^ 31 := by
    have hle := p.size_le
    omega
  cases p with
  | exampleII04 => exact readText_serves htext hsize hsmall ho max copied u.abi stack
  | exampleII05 => exact hsimple.serves_int htext o max copied stack
  | exampleII06 => exact hsimple.serves_int htext o max copied stack
  | exampleIV05 => exact hsimple.serves htext o max copied stack
  | exampleIV06 => exact hsimple.serves htext o max copied stack
  | tpII02 => exact readText_serves htext hsize hsmall ho max copied u.abi stack
  | tpII03 => exact readText_serves htext hsize hsmall ho max copied u.abi stack

/-! ### The reads of one file -/

section OneFile

variable {rs : List Found} {text : List UInt8} {o : ℕ} {max : ℕ+} {reply : Reply}

theorem pieces_append (rs rs' : List Found) : pieces (rs ++ rs') = pieces rs ++ pieces rs' :=
  List.filterMap_append

theorem pieces_failed (hret : reply.ret < 0) : pieces [⟨text, o, reply⟩] = [] := by
  simp [pieces, Found.piece, not_le.2 hret]

theorem pieces_served (hret : 0 ≤ reply.ret) :
    pieces [⟨text, o, reply⟩] = [⟨o, reply.bytes.take reply.ret.toNat⟩] := by
  simp [pieces, Found.piece, hret]

theorem finished_append (r : Found) : Finished (rs ++ [r]) ↔ Finished rs ∨ r.reply.ret = 0 := by
  simp [Finished, or_and_right, exists_or]

/-- What holds of a file in which all reads have found this text. -/
structure Followed (text : List UInt8) (offset : ℤ) (rs : List Found) : Prop where
  contiguous : Contiguous 0 (pieces rs) offset.toNat
  right : ∀ p ∈ pieces rs, p.Right text
  offset_le : offset.toNat ≤ text.length
  finished : Finished rs → offset.toNat = text.length
  length_le : ¬ Finished rs → (pieces rs).length ≤ offset.toNat

theorem followed_nil (text : List UInt8) : Followed text 0 [] := by
  refine ⟨rfl, ?_, Nat.zero_le _, ?_, fun _ => le_rfl⟩
  · intro p hp
    cases hp
  · rintro ⟨r, hr, -⟩
    cases hr

/-- Where a read that is served leads. -/
theorem Serves.offset_le (h : Serves text o max reply) :
    ∃ o' : ℕ, reply.offset = o' ∧ (o' ≤ o ∨ o' ≤ text.length) := by
  rcases h with ⟨-, hoffset⟩ | ⟨piece, hpiece, -, -, -, hoffset⟩
  · exact ⟨o, hoffset, .inl le_rfl⟩
  · have hle := hpiece.length_le
    rw [length_pieceAt] at hle
    refine ⟨o + piece.length, by rw [hoffset, Int.natCast_add], ?_⟩
    omega

/-- One more read that finds the text. -/
theorem Followed.read (h : Followed text o rs) (hserves : Serves text o max reply) :
    Followed text reply.offset (rs ++ [⟨text, o, reply⟩]) := by
  obtain ⟨hcontiguous, hright, hle, hfinished, hlength⟩ := h
  rw [Int.toNat_natCast] at hcontiguous hle hfinished hlength
  rcases hserves with ⟨hret, hoffset⟩ | ⟨piece, hpiece, hnil, hret, hbytes, hoffset⟩
  · have hsame : pieces (rs ++ [⟨text, o, reply⟩]) = pieces rs := by
      rw [pieces_append, pieces_failed hret, List.append_nil]
    have hfinish : Finished (rs ++ [⟨text, o, reply⟩]) ↔ Finished rs := by
      rw [finished_append, or_iff_left hret.ne]
    rw [hoffset]
    exact ⟨by rwa [hsame], by rwa [hsame], hle, by rwa [hfinish], by rwa [hfinish, hsame]⟩
  · have hpieces : pieces (rs ++ [⟨text, o, reply⟩]) = pieces rs ++ [⟨o, piece⟩] := by
      rw [pieces_append, pieces_served (by omega), hret, Int.toNat_natCast, hbytes]
    have hnat : reply.offset.toNat = o + piece.length := by omega
    have hpieceLength := hpiece.length_le
    rw [length_pieceAt] at hpieceLength
    -- an empty piece is only given at the end
    have hempty : reply.ret = 0 → o + piece.length = text.length := by
      intro hzero
      have hpieceNil : piece = [] := List.length_eq_zero_iff.1 (by omega)
      have hnone := length_pieceAt text o max
      rw [hnil hpieceNil, List.length_nil] at hnone
      have hpos := max.pos
      omega
    refine ⟨?_, ?_, ?_, ?_, ?_⟩
    · rw [hnat, hpieces]
      exact hcontiguous.append ⟨rfl, rfl⟩
    · rw [hpieces]
      intro q hq
      rcases List.mem_append.1 hq with hq | hq
      · exact hright q hq
      · cases List.mem_singleton.1 hq
        have hbegins := pieceAt_prefix text o max
        exact List.prefix_iff_eq_take.1 (hpiece.trans hbegins)
    · omega
    · rw [hnat, finished_append]
      rintro (hbefore | hzero)
      · have hend := hfinished hbefore
        omega
      · exact hempty hzero
    · rw [hnat, finished_append, not_or, hpieces, List.length_append, List.length_singleton]
      rintro ⟨hbefore, hzero : reply.ret ≠ 0⟩
      have hcount := hlength hbefore
      omega

/-- What a file has been given, all of whose reads have found this text. -/
theorem Followed.received {offset : ℤ} (h : Followed text offset rs) :
    received (pieces rs) <+: text ∧ (Finished rs → received (pieces rs) = text) ∧
      (text.length < (pieces rs).length → Finished rs) := by
  have hreceived := h.contiguous.received_of_right h.right
  rw [List.drop_zero, Nat.sub_zero] at hreceived
  refine ⟨hreceived ▸ List.take_prefix _ _, fun hend => ?_, fun hmany => ?_⟩
  · rw [hreceived, h.finished hend, List.take_length]
  · by_contra hnot
    have hcount := h.length_le hnot
    have hle := h.offset_le
    omega

end OneFile

/-! ### The runs -/

section Runs

variable {u : Setup} {p : Program} {s s' : State F} {log out : List (Record F)} {f : F}
  {text : List UInt8}

theorem reads_append (f : F) (log out : List (Record F)) :
    reads f (log ++ out) = reads f log ++ reads f out := List.filterMap_append

@[simp] theorem reads_self (f : F) (found : Found) : reads f [.read f found] = [found] := by
  simp [reads, Record.found]

theorem reads_of_ne {g : F} (hne : g ≠ f) (found : Found) : reads f [.read g found] = [] := by
  simp [reads, Record.found, hne]

@[simp] theorem reads_change (f : F) (ret : ℤ) : reads f [Record.change ret] = [] := rfl

/-- What holds of a file after each call. -/
def Kept (f : F) (s : State F) (log : List (Record F)) : Prop :=
  (∃ o : ℕ, s.offset f = o ∧ o < 128) ∧
    ∀ text, (∀ r ∈ reads f log, r.text = text) → Followed text (s.offset f) (reads f log)

theorem kept_start (f : F) (value : ℤ) : Kept f (start F value) [] :=
  ⟨⟨0, rfl, by decide⟩, fun text _ => followed_nil text⟩

theorem kept_step (hsimple : Contract u.simpleReadFromBuffer) (hk : Kept f s log) {a : Act F}
    (hstep : step u p s a = some (s', out)) : Kept f s' (log ++ out) := by
  obtain ⟨⟨o, ho, hsmall⟩, hfollowed⟩ := hk
  unfold Kept
  rw [reads_append]
  cases a with
  | read g current max copied stack =>
    cases hstep
    by_cases hg : g = f
    · subst hg
      have hserves := p.read_serves hsimple current s.value (o := o) (by omega) max copied stack
      obtain ⟨o', ho', hle⟩ := hserves.offset_le
      have hshown := p.length_shown_lt current s.value
      simp only [reads_self, Function.update_self, ho]
      refine ⟨⟨o', ho', by omega⟩, fun text hall => ?_⟩
      have htext : p.shown current s.value = text :=
        hall _ (List.mem_append_right _ (List.mem_singleton_self _))
      subst htext
      have hbefore := hfollowed _ fun r hr => hall r (List.mem_append_left _ hr)
      rw [ho] at hbefore
      exact hbefore.read hserves
    · simp only [reads_of_ne hg, List.append_nil, Function.update_of_ne (Ne.symm hg)]
      exact ⟨⟨o, ho, hsmall⟩, hfollowed⟩
  | change c =>
    obtain ⟨⟨ret, value⟩, -, heq⟩ := Option.map_eq_some_iff.1 hstep
    cases heq
    rw [reads_change, List.append_nil]
    exact ⟨⟨o, ho, hsmall⟩, hfollowed⟩

theorem kept {value : ℤ} {acts : List (Act F)} (hsimple : Contract u.simpleReadFromBuffer)
    (hrun : (system F u p).exec (start F value) acts = some (s, log)) (f : F) : Kept f s log :=
  System.exec_induction (I := Kept f) (fun _ _ _ _ _ hk hstep => kept_step hsimple hk hstep)
    (kept_start f value) hrun

/-- **A complete reading**: in every run, a file of which all reads have found one text has been given a
beginning of it; once a read has returned 0, all of it; and more reads that do not fail than the text
has bytes include one that returns 0. The other files, and the changes in between, do not matter. -/
theorem reading_of_one_text {value : ℤ} {acts : List (Act F)}
    (hsimple : Contract u.simpleReadFromBuffer)
    (hrun : (system F u p).exec (start F value) acts = some (s, log))
    (hall : ∀ r ∈ reads f log, r.text = text) :
    received (pieces (reads f log)) <+: text ∧
      (Finished (reads f log) → received (pieces (reads f log)) = text) ∧
      (text.length < (pieces (reads f log)).length → Finished (reads f log)) :=
  ((kept hsimple hrun f).2 text hall).received

end Runs

/-! ### An example -/

/-- The function of the kernel meets the contract. -/
theorem simpleReadFromBuffer_contract : Contract simpleReadFromBuffer := by
  intro m available o max copied stack
  have hlength := length_pieceAt (m.load 0 available) o max
  rw [Memory.load_length] at hlength
  have hnatural : ¬ (o : ℤ) < 0 := not_lt.2 (Int.natCast_nonneg o)
  simp only [simpleReadFromBuffer, if_neg hnatural, Int.toNat_natCast]
  split_ifs with hnone hfault
  · have hnil : pieceAt (m.load 0 available) o max = [] := List.length_eq_zero_iff.1 (by omega)
    exact .inr ⟨[], List.nil_prefix, fun _ => hnil, rfl, rfl, (Int.add_zero _).symm⟩
  · exact .inl ⟨show -eFault < 0 by decide, rfl⟩
  · have hload : m.load o (min max (available - o)) = pieceAt (m.load 0 available) o max := by
      have hpart := Memory.load_part (m := m) (a := 0) (l := m.load 0 available) (k := available)
        (o := o) (n := min max (available - o)) List.prefix_rfl
        (by rw [Memory.load_length]; omega)
      rw [Int.zero_add] at hpart
      rw [hpart, ← hlength]
      have hbegins := pieceAt_prefix (m.load 0 available) o max
      exact (List.prefix_iff_eq_take.1 hbegins).symm
    simp only [copyToUser, hload, hlength] at hfault ⊢
    have hmoved : min max (available - o) - (min max (available - o) - copied) =
        ((pieceAt (m.load 0 available) o max).take copied).length := by
      rw [List.length_take, hlength]
      omega
    refine .inr ⟨(pieceAt (m.load 0 available) o max).take copied, List.take_prefix _ _, ?_, ?_, ?_,
      ?_⟩
    · intro hnil
      rw [hnil, List.length_nil] at hmoved
      omega
    · rw [hmoved]
    · exact List.take_length
    · rw [hmoved]

/-- A machine of 64 bits, with `sscanf` as the standard describes it. -/
def standard : Setup := ⟨.lp64, fun text => (scanInt text).map Prod.fst, simpleReadFromBuffer⟩

/-- Two tasks read at the same time; one of them reads 10 bytes at most, and once nothing can be copied
to it. -/
def twoReaders : List (Act ℕ) :=
  [.read 0 initTask 10 10 fun _ => 0, .read 1 ⟨7, 1, []⟩ 128 128 fun _ => 0,
    .read 0 initTask 10 0 fun _ => 0, .read 0 initTask 10 10 fun _ => 0,
    .read 1 ⟨7, 1, []⟩ 128 128 fun _ => 0, .read 0 initTask 10 10 fun _ => 0]

theorem reading_of_one_text_twoReaders :
    ∃ s log, (system ℕ standard .exampleIV06).exec (start ℕ 1) twoReaders = some (s, log) ∧
      received (pieces (reads 0 log)) =
        [80, 73, 68, 61, 32, 49, 44, 32, 80, 80, 73, 68, 61, 32, 48, 10] := by
  obtain ⟨⟨s, log⟩, hrun, hval⟩ := Option.map_eq_some_iff.1
    (show ((system ℕ standard .exampleIV06).exec (start ℕ 1) twoReaders).map
        (fun r => (decide (Finished (reads 0 r.2)), (reads 0 r.2).map Found.text)) =
      some (true, List.replicate 4
        [80, 73, 68, 61, 32, 49, 44, 32, 80, 80, 73, 68, 61, 32, 48, 10]) by decide +kernel)
  simp only [Prod.mk.injEq, decide_eq_true_eq] at hval
  have hall : ∀ r ∈ reads 0 log, r.text =
      [80, 73, 68, 61, 32, 49, 44, 32, 80, 80, 73, 68, 61, 32, 48, 10] := by
    intro r hr
    have hmem : r.text ∈ (reads 0 log).map Found.text := List.mem_map_of_mem hr
    rw [hval.2] at hmem
    exact List.eq_of_mem_replicate hmem
  exact ⟨s, log, hrun,
    (reading_of_one_text simpleReadFromBuffer_contract hrun hall).2.1 hval.1⟩

end Readings

end IldDrivers.Proc
