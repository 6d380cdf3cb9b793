import IldDrivers.Kernel
import IldDrivers.Lib.Fifo
import Mathlib.Logic.Function.Basic
import Mathlib.Tactic.SplitIfs

/-!
# The message queue of the `tp-V` solutions, and its sequential version (`tp-V-01`)

All versions keep the messages in the rows of `messages_array` and their number in
`messages_count`. The array is read and written as one block of
`MSG_NB_MAX * MSG_LG_MAX` bytes at address 0, row `i` starting at `rowAddr i`, since the code
itself goes from one row to the next by `memmove` and by the address `messages_array[*offset]`.
Such an address may lie past the array: what `copy_to_user` finds there belongs to the caller's
surroundings (`UserRead.outside`), not to the module.

* `Queue`, `Queue.row`, `Queue.rows`: the globals and the rows in use;
* `Queue.Sound`: the bounds of the count and the untouched last column;
* `TpV01.messagesRead`, `TpV01.messagesWrite`: the two file operations of `tp-V-01`;
* `TpV01.call`: one call through an open file, `TpV01.replay`: calls one after the other.
-/

namespace IldDrivers

def msgNbMax : ℤ := 16
def msgLgMax : ℤ := 32

/-- The globals of the module. -/
structure Queue where
  messagesArray : Memory UInt8
  messagesCount : ℤ

/-- The address of `messages_array[i]`. -/
def rowAddr (i : ℤ) : ℤ := msgLgMax * i

/-- The zero-initialised module. -/
def Queue.init : Queue := ⟨fun _ => 0, 0⟩

namespace Queue

/-- The bytes of `messages_array[i]`. -/
def row (q : Queue) (i : ℤ) : List UInt8 := q.messagesArray.load (rowAddr i) 32

/-- The rows in use, the head first. -/
def rows (q : Queue) : List (List UInt8) :=
  (List.range q.messagesCount.toNat).map fun i : ℕ => q.row i

/-- `strlen(messages_array[0])`: the scan goes from row to row up to the end of the array. -/
def strlenHead (q : Queue) : ℕ := (cstring (q.messagesArray.load (rowAddr 0) 512)).length

/-- `messages_count--`. -/
def decrement (q : Queue) : Queue := { q with messagesCount := q.messagesCount - 1 }

/-- `messages_count++`. -/
def increment (q : Queue) : Queue := { q with messagesCount := q.messagesCount + 1 }

/-- `if (messages_count > 0) memmove(messages_array[0], messages_array[1], …)`. -/
def shift (q : Queue) : Queue :=
  if 0 < q.messagesCount then
    { q with messagesArray :=
        q.messagesArray.move (rowAddr 0) (rowAddr 1) (q.messagesCount * msgLgMax).toNat }
  else q

theorem messagesCount_shift (q : Queue) : q.shift.messagesCount = q.messagesCount := by
  unfold shift
  split_ifs <;> rfl

/-- `copy_from_user(messages_array[messages_count], u_buffer, length)`, with the number of bytes
not copied. -/
def copyIn (q : Queue) (data : List UInt8) (copied : ℕ) : Queue × ℕ :=
  let r := copyFromUser q.messagesArray (rowAddr q.messagesCount) data copied
  ({ q with messagesArray := r.1 }, r.2)

/-- What `copy_to_user` reads from `messages_array[offset]`, `n` bytes: past the end of the array
it reads whatever is there. -/
def source (q : Queue) (outside : Memory UInt8) (offset : ℤ) (n : ℕ) : List UInt8 :=
  Memory.load (fun a => if 0 ≤ a ∧ a < 512 then q.messagesArray a else outside a)
    (rowAddr offset) n

end Queue

/-- What a caller of `messages_read` brings: the length of its buffer, how many bytes can be
copied into it, and what lies around the array. -/
structure UserRead where
  length : ℕ
  copied : ℕ
  outside : Memory UInt8

/-- What a caller of `messages_write` brings: the bytes in its buffer and how many of them can be
read. -/
structure UserWrite where
  data : List UInt8
  copied : ℕ

/-- The effect of a call: the queue and the offset it leaves, the value it returns, and the bytes
it puts in the caller's buffer. -/
structure Outcome where
  queue : Queue
  offset : ℤ
  ret : ℤ
  user : List UInt8

namespace TpV01

/-- `messages_read` of `tp-V-01`. -/
def messagesRead (abi : Abi) (q : Queue) (offset : ℤ) (u : UserRead) : Outcome :=
  if q.messagesCount = 0 then ⟨q, offset, 0, []⟩
  else
    let lg := abi.ssize (q.strlenHead - offset)
    if lg ≤ 0 then ⟨q.decrement.shift, offset, 0, []⟩
    else
      let lg := if lg > u.length then (u.length : ℤ) else lg
      let c := copyToUser (q.source u.outside offset lg.toNat) u.copied
      if c.2 ≠ 0 then ⟨q, offset, -eFault, c.1⟩ else ⟨q, offset + lg, lg, c.1⟩

/-- `messages_write` of `tp-V-01`. -/
def messagesWrite (q : Queue) (offset : ℤ) (u : UserWrite) : Outcome :=
  if q.messagesCount = msgNbMax then ⟨q, offset, -eNoMem, []⟩
  else if (u.data.length : ℤ) ≥ msgLgMax then ⟨q, offset, -eInval, []⟩
  else
    let c := q.copyIn u.data u.copied
    if c.2 ≠ 0 then ⟨c.1, offset, -eFault, []⟩
    else ⟨c.1.increment, offset, u.data.length, []⟩

end TpV01

/-! ### Calls through open files -/

/-- A read or a write through an open file. -/
inductive Call (File : Type*)
  | read (f : File) (u : UserRead)
  | write (f : File) (u : UserWrite)

def Call.file {File : Type*} : Call File → File
  | .read f _ => f
  | .write f _ => f

/-- The globals, and the offset of each open file. -/
structure Shared (File : Type*) where
  queue : Queue
  offset : File → ℤ

/-- The effect of a call on the module and the open files. -/
structure Effect (File : Type*) where
  after : Shared File
  ret : ℤ
  user : List UInt8

variable {File : Type*} [DecidableEq File]

/-- A call's outcome, with the file's offset stored back. -/
def Outcome.effect (sh : Shared File) (f : File) (o : Outcome) : Effect File :=
  ⟨⟨o.queue, Function.update sh.offset f o.offset⟩, o.ret, o.user⟩

/-- One call of `tp-V-01`. -/
def TpV01.call (abi : Abi) (sh : Shared File) : Call File → Effect File
  | .read f u => (TpV01.messagesRead abi sh.queue (sh.offset f) u).effect sh f
  | .write f u => (TpV01.messagesWrite sh.queue (sh.offset f) u).effect sh f

/-- Calls of `tp-V-01` one after the other. -/
def TpV01.replay (abi : Abi) (sh : Shared File) : List (Call File) → List (Effect File)
  | [] => []
  | c :: cs => let e := TpV01.call abi sh c; e :: TpV01.replay abi e.after cs

end IldDrivers
