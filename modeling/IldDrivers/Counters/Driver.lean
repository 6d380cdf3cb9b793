import IldDrivers.Kernel
import IldDrivers.Lib.Bytes
import IldDrivers.Lib.Decimal
import IldDrivers.Lib.Transition
import Mathlib.Tactic

/-!
# Counters (`tp-IV-03`, `tp-IV-04`)

A counter is read as a line of text, is set by a write and advances by its step when a read finds the
end of the line; an `ioctl` sets the step. `tp-IV-03` has one counter, `tp-IV-04` an array of eight,
with a device for each, and the file that is opened keeps the index of its device.

The callbacks of the two programs are the same code about other variables: `readCall`, `writeCall`
and `ioctlCall` say what a callback makes of the values of its counter and its step. The variables of
`tp-IV-03` are two integers. Those of `tp-IV-04` are in the memory of the kernel, where its two
arrays take 32 bytes each, because `ioctl` copies to it by address.

* `TpIV03.system`, `TpIV04.system`: the two programs under any sequence of calls.

The memory around the arrays is not interpreted: what is written there is seen to be written, but the
variables that are there keep no meaning.
-/

namespace IldDrivers.Counters

/-! ### The callbacks -/

/-- A `read`: `*offset`, the length, how many bytes can be copied, and the stack of the call, with
`kbuffer` at address 0. -/
structure ReadArgs where
  offset : ℤ
  maxLg : ℕ
  copied : ℕ
  stack : Memory UInt8

/-- A `write`: the bytes, whether `kmalloc` succeeds and how many bytes can be copied. -/
structure WriteArgs where
  data : List UInt8
  kmalloc : Bool
  copied : ℕ

/-- An `ioctl`: the command, and the bytes at the address `arg`, up to the first that cannot be
read. -/
structure IoctlArgs where
  cmd : ℕ
  user : List UInt8

inductive Call
  | read (a : ReadArgs)
  | write (a : WriteArgs)
  | ioctl (a : IoctlArgs)

/-- What a call returns, the bytes it delivers, and what it adds to `*offset`. -/
structure Reply where
  ret : ℤ
  text : List UInt8
  advance : ℤ
  deriving DecidableEq

/-- What both programs run on: the machine, and `kstrtoint` in base 10, with the value it stores
when it returns 0. -/
structure Machine where
  abi : Abi
  kstrtoint : List UInt8 → Option ℤ

/-- `"Counter = %d\n"`. -/
def counterText (counter : ℤ) : List UInt8 :=
  [67, 111, 117, 110, 116, 101, 114, 32, 61, 32] ++ decimal counter ++ [10]

/-- `counter_read`, with the new value of the counter if it is changed. -/
def readCall (abi : Abi) (counter counterStep : ℤ) (a : ReadArgs) : Reply × Option ℤ :=
  let kbuffer := a.stack.store 0 ((counterText counter).take 127 ++ [0])
  let lg := cInt ((cstring (kbuffer.load 0 128)).length - a.offset)
  if lg ≤ 0 then (⟨0, [], 0⟩, some (counter + counterStep))
  else
    let lg := if (a.maxLg : ℤ) < lg then (a.maxLg : ℤ) else lg
    let (text, left) := copyToUser (kbuffer.load (abi.ssize a.offset) lg.toNat) a.copied
    if left ≠ 0 then (⟨-eFault, text, 0⟩, none) else (⟨lg, text, lg⟩, none)

/-- `counter_write`, with the value stored in the counter. -/
def writeCall (kstrtoint : List UInt8 → Option ℤ) (a : WriteArgs) : Reply × Option ℤ :=
  if ¬ a.kmalloc then (⟨-eNoMem, [], 0⟩, none)
  else if a.data.length - a.copied ≠ 0 then (⟨-eFault, [], 0⟩, none)
  else
    match kstrtoint (cstring (a.data ++ [0])) with
    | none => (⟨-eInval, [], 0⟩, none)
    | some nb => (⟨a.data.length, [], 0⟩, some nb)

def counterIoctlMagic : ℕ := 99
def setStepCommand : ℕ := 1

/-- `_IOC_TYPE`. -/
def iocType (cmd : ℕ) : ℕ := cmd / 2 ^ 8 % 2 ^ 8

/-- `_IOC_NR`. -/
def iocNr (cmd : ℕ) : ℕ := cmd % 2 ^ 8

/-- What `copy_from_user` of `size` bytes writes when these can be read. -/
def copiedBytes (user : List UInt8) (size : ℕ) : List UInt8 :=
  user.take size ++ List.replicate (size - user.length) 0

/-- `counter_ioctl`, with the bytes written from the address of the step on; `size` is
`sizeof(counter_step)`. -/
def ioctlCall (size : ℕ) (a : IoctlArgs) : Reply × Option (List UInt8) :=
  if iocType a.cmd ≠ counterIoctlMagic then (⟨-eNoTty, [], 0⟩, none)
  else if iocNr a.cmd = setStepCommand then
    (⟨if size - a.user.length ≠ 0 then -eFault else 0, [], 0⟩, some (copiedBytes a.user size))
  else (⟨-eNoTty, [], 0⟩, none)

/-- A command that sets the step. -/
theorem ioctlCall_set (size : ℕ) {a : IoctlArgs} (htype : iocType a.cmd = counterIoctlMagic)
    (hnr : iocNr a.cmd = setStepCommand) :
    ioctlCall size a = (⟨if size - a.user.length ≠ 0 then -eFault else 0, [], 0⟩,
      some (copiedBytes a.user size)) := by
  rw [ioctlCall, if_neg (not_not_intro htype), if_pos hnr]

/-- A command that does not come to the copy. -/
theorem ioctlCall_other (size : ℕ) {a : IoctlArgs}
    (h : iocType a.cmd ≠ counterIoctlMagic ∨ iocNr a.cmd ≠ setStepCommand) :
    ioctlCall size a = (⟨-eNoTty, [], 0⟩, none) := by
  unfold ioctlCall
  rcases h with htype | hnr
  · rw [if_pos htype]
  · rw [if_neg hnr, ite_self]

/-- An `int` that consists of these bytes. -/
def intOfBytes (l : List UInt8) : ℤ := cInt (leVal l)

/-- What is asked of a device. -/
inductive Request
  | opened
  | call (c : Call)

/-! ### `tp-IV-03` -/

namespace TpIV03

structure State where
  counter : ℤ
  counterStep : ℤ

def init : State := ⟨0, 1⟩

/-- `counter_read`. -/
def counterRead (abi : Abi) (s : State) (a : ReadArgs) : State × Reply :=
  let (reply, stored) := readCall abi s.counter s.counterStep a
  ({ s with counter := stored.elim s.counter cInt }, reply)

/-- `counter_write`. -/
def counterWrite (kstrtoint : List UInt8 → Option ℤ) (s : State) (a : WriteArgs) : State × Reply :=
  let (reply, stored) := writeCall kstrtoint a
  ({ s with counter := stored.elim s.counter cInt }, reply)

/-- `counter_ioctl`; `sizeof(counter_step)` is that of an `int`. -/
def counterIoctl (s : State) (a : IoctlArgs) : State × Reply :=
  let (reply, written) := ioctlCall 4 a
  ({ s with counterStep := written.elim s.counterStep intOfBytes }, reply)

/-- The device has no `open` of its own. -/
def serve (u : Machine) (s : State) : Request → State × Reply
  | .opened => (s, ⟨0, [], 0⟩)
  | .call (.read a) => counterRead u.abi s a
  | .call (.write a) => counterWrite u.kstrtoint s a
  | .call (.ioctl a) => counterIoctl s a

def system (u : Machine) : System State Request Reply where
  step s r := some ((serve u s r).1, [(serve u s r).2])

end TpIV03

/-! ### `tp-IV-04` -/

namespace TpIV04

/-- `NB_COUNTERS`. -/
abbrev nbCounters : ℕ := 8

/-- The addresses of `counter[]` and `counter_step[]`. -/
structure Layout where
  counter : ℤ
  counterStep : ℤ
  disjoint : counter + 32 ≤ counterStep ∨ counterStep + 32 ≤ counter

/-- The address of `counter[idx]`. -/
def Layout.counterAddr (u : Layout) (idx : Fin nbCounters) : ℤ := u.counter + 4 * (idx : ℕ)

/-- The address of `counter_step[idx]`. -/
def Layout.stepAddr (u : Layout) (idx : Fin nbCounters) : ℤ := u.counterStep + 4 * (idx : ℕ)

/-- The address is in one of the two arrays. -/
def Layout.Contains (u : Layout) (x : ℤ) : Prop :=
  (u.counter ≤ x ∧ x < u.counter + 32) ∨ (u.counterStep ≤ x ∧ x < u.counterStep + 32)

/-- What is fixed for a run: also the addresses of the arrays and the minors that `misc_register` has
given to the devices. -/
structure Setup extends Machine where
  layout : Layout
  minors : Fin nbCounters → ℕ

/-- An `int` in memory. -/
def loadInt (m : Memory UInt8) (a : ℤ) : ℤ := intOfBytes (m.load a 4)

def storeInt (m : Memory UInt8) (a : ℤ) (x : ℤ) : Memory UInt8 := m.store a (leBytes 4 x)

/-- `counter_read`. -/
def counterRead (u : Setup) (m : Memory UInt8) (idx : Fin nbCounters) (a : ReadArgs) :
    Memory UInt8 × Reply :=
  let (reply, stored) := readCall u.abi (loadInt m (u.layout.counterAddr idx))
    (loadInt m (u.layout.stepAddr idx)) a
  (stored.elim m (storeInt m (u.layout.counterAddr idx)), reply)

/-- `counter_write`. -/
def counterWrite (u : Setup) (m : Memory UInt8) (idx : Fin nbCounters) (a : WriteArgs) :
    Memory UInt8 × Reply :=
  let (reply, stored) := writeCall u.kstrtoint a
  (stored.elim m (storeInt m (u.layout.counterAddr idx)), reply)

/-- `counter_ioctl`; `sizeof(counter_step)` is that of the array. -/
def counterIoctl (u : Setup) (m : Memory UInt8) (idx : Fin nbCounters) (a : IoctlArgs) :
    Memory UInt8 × Reply :=
  let (reply, written) := ioctlCall (4 * nbCounters) a
  (written.elim m (m.store (u.layout.stepAddr idx)), reply)

def serve (u : Setup) (m : Memory UInt8) (idx : Fin nbCounters) : Call → Memory UInt8 × Reply
  | .read a => counterRead u m idx a
  | .write a => counterWrite u m idx a
  | .ioctl a => counterIoctl u m idx a

/-- The index that `counter_open` finds. -/
def select (minors : Fin nbCounters → ℕ) (minor : ℕ) : Option (Fin nbCounters) :=
  (List.finRange nbCounters).find? fun i => minors i = minor

structure State (File : Type*) where
  mem : Memory UInt8
  /-- `filp->private_data` of the open files. -/
  privateData : File → Option (Fin nbCounters)

inductive Act (File : Type*)
  /-- The file is opened through a node with this minor. -/
  | openFile (f : File) (minor : ℕ)
  | call (f : File) (c : Call)

/-- A call: the index selected by the `open` of its file, what was asked, and the reply. -/
structure Record where
  idx : Option (Fin nbCounters)
  request : Request
  reply : Reply

variable {File : Type*} [DecidableEq File]

def step (u : Setup) (s : State File) : Act File → Option (State File × List Record)
  | .openFile f minor =>
      if s.privateData f ≠ none then none
      else
        match select u.minors minor with
        | none => some (s, [⟨none, .opened, ⟨-eInval, [], 0⟩⟩])
        | some i =>
            some ({ s with privateData := Function.update s.privateData f (some i) },
              [⟨some i, .opened, ⟨0, [], 0⟩⟩])
  | .call f c =>
      (s.privateData f).map fun i =>
        let (mem, reply) := serve u s.mem i c
        ({ s with mem := mem }, [⟨some i, .call c, reply⟩])

def system (u : Setup) (File : Type*) [DecidableEq File] :
    System (State File) (Act File) Record := ⟨step u⟩

/-- After `counter_init`, in a memory that is otherwise `m`. -/
def init (u : Setup) (m : Memory UInt8) (File : Type*) : State File where
  mem := (m.store u.layout.counter (List.replicate 32 0)).store u.layout.counterStep
    (List.replicate nbCounters (leBytes 4 1)).flatten
  privateData _ := none

end TpIV04

end IldDrivers.Counters
