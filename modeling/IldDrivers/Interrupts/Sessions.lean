import IldDrivers.Interrupts.Timestamps
import Mathlib.Data.Finset.Basic

/-!
# The files of `example-V-10`

Each `open` allocates a structure of its own, requests the GPIO, which has one user at a time, and
registers `example_handler` with the structure; `release` undoes this. An `open` that fails goes through
`free_gpio` and `free_data`.

* `Stage`: how far the `open` or the `release` of a file has come;
* `step`: the statements of the opens, the releases, the reads and the handlers, in any order; what
  `kmalloc`, `gpio_request`, `gpio_direction_input` and `request_irq` return is in the hands of the
  schedule.

The files are numbered in the order of their opens. A read holds a reference to its file, so `release`
is not called meanwhile. `free_irq` removes the handler and waits for those that are running.
-/

namespace IldDrivers.Timestamps.Sessions

/-- The statement of `example_open` that comes next. -/
inductive OpenPc (Data : Type*)
  | kmalloc
  /-- `data->array_end = 0` and the assignments up to `gpio_request`. -/
  | empty (data : Data)
  | gpioRequest (data : Data)
  | gpioDirectionInput (data : Data)
  | requestIrq (data : Data)
  /-- `free_gpio:`. -/
  | freeGpio (data : Data) (err : ℤ)
  /-- `free_data:`. -/
  | freeData (data : Data) (err : ℤ)
  deriving DecidableEq

/-- The statement of `example_release` that comes next. -/
inductive ReleasePc
  /-- `free_irq`, up to the removal of the handler. -/
  | freeIrq
  /-- The rest of `free_irq`. -/
  | synchronize
  | gpioFree
  | kfree
  deriving DecidableEq

/-- A file. -/
inductive Stage (Data : Type*)
  | unopened
  | opening (pc : OpenPc Data)
  /-- With its `private_data`. -/
  | opened (data : Data)
  | failed (err : ℤ)
  | releasing (data : Data) (pc : ReleasePc)
  | closed
  deriving DecidableEq

/-- An execution of `example_handler` or `example_read`, or none. -/
inductive Proc (Data : Type*)
  | outside
  /-- Before its critical section. -/
  | handlerLock (data : Data)
  /-- About to execute `wake_up_interruptible`. -/
  | handlerWake (data : Data)
  | read (f : ℕ) (data : Data) (a : ReadArgs) (pc : ReadPc)

structure State (Pid Data : Type*) where
  /-- The GPIO is requested. -/
  gpio : Bool
  /-- The handlers of the interrupt, by their last argument. -/
  handlers : List Data
  /-- What `kmalloc` has given and `kfree` has not taken back. -/
  heap : Data → Option ExampleData
  jiffies : ℕ
  /-- The number of opens so far. -/
  opens : ℕ
  stage : ℕ → Stage Data
  proc : Pid → Proc Data
  /-- The reads in progress on each file. -/
  readers : ℕ → Finset Pid
  /-- The executions of the handler with each structure. -/
  running : Data → Finset Pid

inductive Act (Pid Data : Type*)
  | tick
  /-- An interrupt: `example_handler` is called with this structure. -/
  | interrupt (p : Pid) (data : Data)
  | openFile
  /-- The open of the file executes `kmalloc`; the block has anything in it. -/
  | kmalloc (f : ℕ) (block : Option (Data × ExampleData))
  /-- It executes `gpio_request`, `gpio_direction_input` or `request_irq`, which returns this. -/
  | call (f : ℕ) (err : ℤ)
  /-- The open or the release of the file executes another statement. -/
  | runFile (f : ℕ)
  | release (f : ℕ)
  | read (p : Pid) (f : ℕ) (a : ReadArgs)
  | run (p : Pid)
  | signal (p : Pid)

inductive Event (Pid Data : Type*)
  /-- `request_irq` has returned 0, and `example_open` with it. -/
  | opened (f : ℕ) (data : Data)
  | openFailed (f : ℕ) (err : ℤ)
  | released (f : ℕ)
  /-- An interrupt is taken. -/
  | taken (p : Pid) (data : Data)
  | recorded (p : Pid) (data : Data) (jiffies : ℕ)
  | dropped (p : Pid) (data : Data) (jiffies : ℕ)
  | removed (p : Pid) (f : ℕ) (value : ℕ)
  | returned (p : Pid) (f : ℕ) (ret : ℤ) (user : List UInt8)
  deriving DecidableEq

variable {Pid Data : Type*} [DecidableEq Pid] [DecidableEq Data]

def State.setStage (s : State Pid Data) (f : ℕ) (x : Stage Data) : State Pid Data :=
  { s with stage := Function.update s.stage f x }

def State.setProc (s : State Pid Data) (p : Pid) (x : Proc Data) : State Pid Data :=
  { s with proc := Function.update s.proc p x }

def State.setHeap (s : State Pid Data) (data : Data) (x : Option ExampleData) : State Pid Data :=
  { s with heap := Function.update s.heap data x }

/-- `kmalloc`, in the open of the file `f`; it does not return what is in use. -/
def kmalloc (s : State Pid Data) (f : ℕ) :
    Option (Data × ExampleData) → Option (State Pid Data × List (Event Pid Data))
  | none => some (s.setStage f (.failed (-eNoMem)), [.openFailed f (-eNoMem)])
  | some (data, block) =>
      if s.heap data = none then
        some ((s.setHeap data (some block)).setStage f (.opening (.empty data)), [])
      else none

/-- `gpio_request`, which succeeds only when the GPIO is free, `gpio_direction_input` and
`request_irq`, in the open of the file `f`. -/
def callStep (s : State Pid Data) (f : ℕ) (err : ℤ) :
    OpenPc Data → Option (State Pid Data × List (Event Pid Data))
  | .gpioRequest data =>
      if err ≠ 0 then some (s.setStage f (.opening (.freeData data err)), [])
      else if s.gpio then none
      else some ({ s with gpio := true }.setStage f (.opening (.gpioDirectionInput data)), [])
  | .gpioDirectionInput data =>
      if err ≠ 0 then some (s.setStage f (.opening (.freeGpio data err)), [])
      else some (s.setStage f (.opening (.requestIrq data)), [])
  | .requestIrq data =>
      if err ≠ 0 then some (s.setStage f (.opening (.freeGpio data err)), [])
      else
        some ({ s with handlers := data :: s.handlers }.setStage f (.opened data), [.opened f data])
  | _ => none

/-- The other statements of `example_open`. -/
def openStep (s : State Pid Data) (f : ℕ) :
    OpenPc Data → Option (State Pid Data × List (Event Pid Data))
  | .empty data =>
      (s.heap data).map fun block =>
        ((s.setHeap data (some { block with arrayEnd := 0 })).setStage f
          (.opening (.gpioRequest data)), [])
  | .freeGpio data err => some ({ s with gpio := false }.setStage f (.opening (.freeData data err)), [])
  | .freeData data err =>
      some ((s.setHeap data none).setStage f (.failed err), [.openFailed f err])
  | _ => none

/-- The statements of `example_release`. -/
def releaseStep (s : State Pid Data) (f : ℕ) (data : Data) :
    ReleasePc → Option (State Pid Data × List (Event Pid Data))
  | .freeIrq =>
      some ({ s with handlers := s.handlers.erase data }.setStage f (.releasing data .synchronize), [])
  | .synchronize =>
      if s.running data = ∅ then some (s.setStage f (.releasing data .gpioFree), []) else none
  | .gpioFree => some ({ s with gpio := false }.setStage f (.releasing data .kfree), [])
  | .kfree => some ((s.setHeap data none).setStage f .closed, [.released f])

/-- A read leaves the driver. -/
def leave (s : State Pid Data) (p : Pid) (f : ℕ) (r : ℤ × List UInt8) :
    State Pid Data × List (Event Pid Data) :=
  ({ s with readers := Function.update s.readers f ((s.readers f).erase p) }.setProc p .outside,
    [.returned p f r.1 r.2])

/-- The next statement of a read on the file `f`, with what is in its structure. -/
def readStep (abi : Abi) (s : State Pid Data) (p : Pid) (f : ℕ) (data : Data) (a : ReadArgs)
    (block : ExampleData) : ReadPc → Option (State Pid Data × List (Event Pid Data))
  | .lock =>
      if block.arrayEnd = 0 then some (s.setProc p (.read f data a .testNonblock), [])
      else
        some ((s.setHeap data (some block.removeFirst)).setProc p
          (.read f data a (.format (block.array 0))), [.removed p f (block.array 0)])
  | .testNonblock =>
      if a.nonblock then some (leave s p f (-eAgain, []))
      else some (s.setProc p (.read f data a (.wait .test)), [])
  | .wait w =>
      match w.advance (block.arrayEnd != 0) with
      | some (.goto w') => some (s.setProc p (.read f data a (.wait w')), [])
      | some .finish => some (s.setProc p (.read f data a .lock), [])
      | _ => none
  | .format value => some (leave s p f (deliver abi a value))

/-- The critical section of `example_handler`. -/
def handlerStep (s : State Pid Data) (p : Pid) (data : Data) (block : ExampleData) :
    State Pid Data × List (Event Pid Data) :=
  if block.arrayEnd < exampleArraySize then
    ((s.setHeap data (some (block.record s.jiffies))).setProc p (.handlerWake data),
      [.recorded p data s.jiffies])
  else (s.setProc p (.handlerWake data), [.dropped p data s.jiffies])

/-- `wake_up_interruptible(&data->array_wq)`. -/
def wakeUp (proc : Pid → Proc Data) (data : Data) : Pid → Proc Data := fun p =>
  match proc p with
  | .read f data' a (.wait w) => .read f data' a (.wait (if data' = data then w.wake else w))
  | x => x

def step (abi : Abi) (s : State Pid Data) :
    Act Pid Data → Option (State Pid Data × List (Event Pid Data))
  | .tick => some ({ s with jiffies := (s.jiffies + 1) % 2 ^ abi.longBits }, [])
  | .interrupt p data =>
      match s.proc p with
      | .outside =>
        if data ∈ s.handlers then
          some ({ s with running := Function.update s.running data (insert p (s.running data)) }.setProc
            p (.handlerLock data), [.taken p data])
        else none
      | _ => none
  | .openFile =>
      some ({ s with opens := s.opens + 1 }.setStage s.opens (.opening .kmalloc), [])
  | .kmalloc f block =>
      match s.stage f with
      | .opening .kmalloc => kmalloc s f block
      | _ => none
  | .call f err =>
      match s.stage f with
      | .opening pc => callStep s f err pc
      | _ => none
  | .runFile f =>
      match s.stage f with
      | .opening pc => openStep s f pc
      | .releasing data pc => releaseStep s f data pc
      | _ => none
  | .release f =>
      match s.stage f with
      | .opened data =>
        if s.readers f = ∅ then some (s.setStage f (.releasing data .freeIrq), []) else none
      | _ => none
  | .read p f a =>
      match s.proc p, s.stage f with
      | .outside, .opened data =>
        some ({ s with readers := Function.update s.readers f (insert p (s.readers f)) }.setProc
          p (.read f data a .lock), [])
      | _, _ => none
  | .run p =>
      match s.proc p with
      | .outside => none
      -- a structure that is not in the heap any more cannot be used
      | .handlerLock data => (s.heap data).map (handlerStep s p data)
      | .handlerWake data =>
          (s.heap data).map fun _ =>
            ({ s with
              proc := wakeUp s.proc data
              running := Function.update s.running data ((s.running data).erase p) }.setProc
                p .outside, [])
      | .read f data a pc => (s.heap data).bind fun block => readStep abi s p f data a block pc
  | .signal p =>
      match s.proc p with
      | .read f data a (.wait w) =>
        (s.heap data).bind fun block =>
          match w.interrupt (block.arrayEnd != 0) with
          | some (.goto w') => some (s.setProc p (.read f data a (.wait w')), [])
          | some .interrupted => some (leave s p f (-eRestartSys, []))
          | _ => none
      | _ => none

def system (abi : Abi) (Pid Data : Type*) [DecidableEq Pid] [DecidableEq Data] :
    System (State Pid Data) (Act Pid Data) (Event Pid Data) := ⟨step abi⟩

/-- The module is loaded; nothing is open. -/
def init (Pid Data : Type*) (jiffies : ℕ) : State Pid Data where
  gpio := false
  handlers := []
  heap _ := none
  jiffies := jiffies
  opens := 0
  stage _ := .unopened
  proc _ := .outside
  readers _ := ∅
  running _ := ∅

end IldDrivers.Timestamps.Sessions
