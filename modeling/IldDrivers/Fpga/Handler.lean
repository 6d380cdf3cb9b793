import IldDrivers.Fpga.Transfers
import IldDrivers.Ioctl.Flags
import IldDrivers.Lib.History

/-!
# The interrupt handler of `example-fpga`

`example_fpga_interrupt_handler` reads the edge capture register of its board, toggles the static
variable `value` and shows it on the LEDs, and writes to four registers before it returns. While an
invocation is in progress, edges may arrive on the switches, handlers of other boards run, processes
write to the LEDs and set `irq_handling`; the kernel does not call the handler of a board a second time
before it has returned.

* `Registers`: the registers of a board that the handler accesses;
* `step`: the statements of the handlers and of the end of `example_fpga_initialize_pci_device`, which
  follows `request_irq`, in any order of the boards; a write to the LEDs and an `ioctl` are one step;
* `Event`: what is seen of a run; a statement of a handler with the registers before and after it;
* `each_iff_of_statements`: how a requirement on these statements is proved of every run.
-/

namespace IldDrivers.ExampleFpga.Handler

/-! ### Boards -/

/-- `module_switches + 0x0C` and `+ 0x08`, `module_controls + 0x50`, and `module_leds` by address. -/
structure Registers where
  edgeCapture : BitVec 32
  interruptMask : BitVec 32
  enable : BitVec 32
  leds : Memory UInt8

/-- The statement that an invocation is about to execute; it has read a status other than 0. -/
inductive Pc
  /-- `n = ioread32(module_switches + 0x0C)`. -/
  | readEdge
  /-- `if (irq_handling)`. -/
  | test
  /-- `value = value ^ n`. -/
  | toggle
  /-- `iowrite8(value, module_leds)`. -/
  | writeLeds
  /-- `iowrite32(0, module_switches + 0x08)`. -/
  | mask
  /-- `iowrite32(3, module_switches + 0x0C)`. -/
  | clearEdge
  /-- `iowrite32(3, module_switches + 0x08)`. -/
  | unmask
  /-- `iowrite32(1, module_controls + 0x50)`, and the end of the invocation. -/
  | enable
  deriving DecidableEq

structure Invocation where
  n : BitVec 32
  pc : Pc

/-- The statement after `request_irq` that `example_fpga_initialize_pci_device` is about to execute. -/
inductive Setup
  | edgeCapture
  | interruptMask
  | enable

/-- A board and its `struct example_fpga_s`. -/
structure Fpga where
  registers : Registers
  irqHandling : ℤ
  setup : Option Setup
  handler : Option Invocation

/-! ### The machine -/

variable {Board : Type*} [DecidableEq Board] {abi : Abi}

/-- `value` is the static variable of the handler, which all boards share. -/
structure State (Board : Type*) where
  fpga : Board → Fpga
  value : BitVec 32

inductive Act (Board : Type*)
  /-- Edges on the switches, as bits of the edge capture register. -/
  | edge (b : Board) (bits : BitVec 32)
  | setup (b : Board)
  /-- The kernel calls the handler, which reads this status. -/
  | interrupt (b : Board) (status : BitVec 32)
  | run (b : Board)
  /-- `example_fpga_write` on the minor of the LEDs. -/
  | write (b : Board) (offset : ℤ) (data : List UInt8) (kmalloc : Bool) (copied : ℕ)
  | ioctl (b : Board) (a : Ioctl.Args)

inductive Event (Board : Type*)
  | edge (b : Board) (bits : BitVec 32)
  /-- The initialization of the board has cleared the edge capture register. -/
  | initialized (b : Board)
  /-- The handler of the board executes the statement at `pc`, with this `n`; the registers of all the
  boards before and after it. -/
  | access (b : Board) (pc : Pc) (n : BitVec 32) (before after : Board → Registers)
  /-- A process has written these bytes to the LEDs. -/
  | stored (b : Board) (bytes : List (ℤ × UInt8))

/-- The board that an event is about. -/
def Event.board : Event Board → Board
  | .edge b _ | .initialized b | .access b _ _ _ _ | .stored b _ => b

/-- The register after 3 has been written to it: a 1 clears its bit. -/
def clearCaptured (edgeCapture : BitVec 32) : BitVec 32 := edgeCapture &&& ~~~3

/-- The low byte of an `int`. -/
def lowByte (x : BitVec 32) : UInt8 := UInt8.ofBitVec (x.setWidth 8)

def State.registers (s : State Board) (b : Board) : Registers := (s.fpga b).registers

def State.setFpga (s : State Board) (b : Board) (x : Fpga) : State Board :=
  { s with fpga := Function.update s.fpga b x }

/-- A statement of the invocation `c` of the handler of the board `b`. -/
def runStep (modules : Board → Modules abi) (s : State Board) (b : Board) (c : Invocation) :
    State Board :=
  let x := s.fpga b
  let r := x.registers
  match c.pc with
  | .readEdge => s.setFpga b { x with handler := some ⟨r.edgeCapture, .test⟩ }
  | .test =>
      s.setFpga b
        { x with handler := some { c with pc := if x.irqHandling ≠ 0 then .toggle else .mask } }
  | .toggle =>
      { s.setFpga b { x with handler := some { c with pc := .writeLeds } } with
        value := s.value ^^^ c.n }
  | .writeLeds =>
      s.setFpga b { x with
        registers := { r with leds := iowrite8 r.leds [((modules b).moduleLeds, lowByte s.value)] }
        handler := some { c with pc := .mask } }
  | .mask =>
      s.setFpga b { x with
        registers := { r with interruptMask := 0 }, handler := some { c with pc := .clearEdge } }
  | .clearEdge =>
      s.setFpga b { x with
        registers := { r with edgeCapture := clearCaptured r.edgeCapture }
        handler := some { c with pc := .unmask } }
  | .unmask =>
      s.setFpga b { x with
        registers := { r with interruptMask := 3 }, handler := some { c with pc := .enable } }
  | .enable => s.setFpga b { x with registers := { r with enable := 1 }, handler := none }

/-- A statement of the initialization. -/
def setupStep (x : Fpga) : Setup → Fpga
  | .edgeCapture =>
      { x with
        registers := { x.registers with edgeCapture := clearCaptured x.registers.edgeCapture }
        setup := some .interruptMask }
  | .interruptMask =>
      { x with registers := { x.registers with interruptMask := 3 }, setup := some .enable }
  | .enable => { x with registers := { x.registers with enable := 1 }, setup := none }

def step (modules : Board → Modules abi) (s : State Board) :
    Act Board → Option (State Board × List (Event Board))
  | .edge b bits =>
      let x := s.fpga b
      let r := { x.registers with edgeCapture := x.registers.edgeCapture ||| bits }
      some (s.setFpga b { x with registers := r }, [.edge b bits])
  | .setup b =>
      let x := s.fpga b
      match x.setup with
      | none => none
      | some .edgeCapture => some (s.setFpga b (setupStep x .edgeCapture), [.initialized b])
      | some pc => some (s.setFpga b (setupStep x pc), [])
  | .interrupt b status =>
      let x := s.fpga b
      match x.handler with
      | some _ => none
      | none =>
        -- the interrupt of another device on the same line
        if status = 0 then some (s, [])
        else some (s.setFpga b { x with handler := some ⟨status, .readEdge⟩ }, [])
  | .run b =>
      match (s.fpga b).handler with
      | none => none
      | some c =>
        let s' := runStep modules s b c
        some (s', [.access b c.pc c.n s.registers s'.registers])
  | .write b offset data kmalloc copied =>
      let x := s.fpga b
      match x.setup with
      | some _ => none
      | none =>
        let e := ExampleFpga.write (modules b) minorLeds offset data ⟨kmalloc, x.registers.leds, copied⟩
        let r := { x.registers with leds := iowrite8 x.registers.leds e.iowrite }
        some (s.setFpga b { x with registers := r }, [.stored b e.iowrite])
  | .ioctl b a =>
      let x := s.fpga b
      match x.setup with
      | some _ => none
      | none =>
        some (s.setFpga b { x with irqHandling := (ExampleFpga.ioctl x.irqHandling a).1 }, [])

def machine (modules : Board → Modules abi) : System (State Board) (Act Board) (Event Board) :=
  ⟨step modules⟩

/-- The boards just after `request_irq`; `example_fpga_probe` has set `irq_handling`. -/
def init (registers : Board → Registers) : State Board where
  fpga b := ⟨registers b, 1, some .edgeCapture, none⟩
  value := 0

/-! ### Fields -/

variable {modules : Board → Modules abi} {s s' : State Board} {b b' : Board}

@[simp] theorem setFpga_self (x : Fpga) : (s.setFpga b x).fpga b = x := Function.update_self ..

@[simp] theorem setFpga_of_ne (x : Fpga) (h : b' ≠ b) : (s.setFpga b x).fpga b' = s.fpga b' :=
  Function.update_of_ne h ..

@[simp] theorem registers_setFpga_self (x : Fpga) :
    (s.setFpga b x).registers b = x.registers := by
  rw [State.registers, setFpga_self]

@[simp] theorem registers_setFpga_of_ne (x : Fpga) (h : b' ≠ b) :
    (s.setFpga b x).registers b' = s.registers b' := by
  rw [State.registers, setFpga_of_ne _ h, State.registers]

@[simp] theorem setFpga_value (x : Fpga) : (s.setFpga b x).value = s.value := rfl

/-! ### Steps -/

/-- What a step does; a quiet one leaves the handlers, the edges and the LEDs as they are. -/
inductive Move (modules : Board → Modules abi) (s : State Board) :
    State Board → List (Event Board) → Prop
  | edge (b : Board) (bits : BitVec 32) :
      Move modules s
        (s.setFpga b { s.fpga b with
          registers := { s.registers b with
            edgeCapture := (s.registers b).edgeCapture ||| bits } })
        [.edge b bits]
  | reset (b : Board) :
      Move modules s (s.setFpga b (setupStep (s.fpga b) .edgeCapture)) [.initialized b]
  | quiet (b : Board) (x : Fpga) (hhandler : x.handler = (s.fpga b).handler)
      (hedge : x.registers.edgeCapture = (s.registers b).edgeCapture)
      (hleds : x.registers.leds = (s.registers b).leds) : Move modules s (s.setFpga b x) []
  | ignore : Move modules s s []
  | interrupt (b : Board) (status : BitVec 32) (hidle : (s.fpga b).handler = none) :
      Move modules s (s.setFpga b { s.fpga b with handler := some ⟨status, .readEdge⟩ }) []
  | run (b : Board) (c : Invocation) (hc : (s.fpga b).handler = some c) :
      Move modules s (runStep modules s b c)
        [.access b c.pc c.n s.registers (runStep modules s b c).registers]
  | write (b : Board) (bytes : List (ℤ × UInt8)) :
      Move modules s
        (s.setFpga b { s.fpga b with
          registers := { s.registers b with leds := iowrite8 (s.registers b).leds bytes } })
        [.stored b bytes]

theorem move_of_step {a : Act Board} {out : List (Event Board)}
    (hstep : step modules s a = some (s', out)) : Move modules s s' out := by
  cases a with
  | edge b bits =>
    cases hstep
    exact .edge b bits
  | setup b =>
    simp only [step] at hstep
    cases hsetup : (s.fpga b).setup with
    | none => simp [hsetup] at hstep
    | some pc =>
      simp only [hsetup] at hstep
      cases pc with
      | edgeCapture =>
        cases hstep
        exact .reset b
      | interruptMask | enable =>
        cases hstep
        exact .quiet b _ rfl rfl rfl
  | interrupt b status =>
    simp only [step] at hstep
    cases hhandler : (s.fpga b).handler with
    | some c => simp [hhandler] at hstep
    | none =>
      simp only [hhandler] at hstep
      split_ifs at hstep
      · cases hstep
        exact .ignore
      · cases hstep
        exact .interrupt b status hhandler
  | run b =>
    simp only [step] at hstep
    cases hhandler : (s.fpga b).handler with
    | none => simp [hhandler] at hstep
    | some c =>
      simp only [hhandler] at hstep
      cases hstep
      exact .run b c hhandler
  | write b offset data kmalloc copied =>
    simp only [step] at hstep
    split at hstep
    · cases hstep
    · cases hstep
      exact .write b _
  | ioctl b a =>
    simp only [step] at hstep
    split at hstep
    · cases hstep
    · cases hstep
      exact .quiet b _ rfl rfl rfl

/-- A statement of a handler is one about its board. -/
theorem registers_runStep_of_ne (c : Invocation) (h : b' ≠ b) :
    (runStep modules s b c).registers b' = s.registers b' := by
  unfold runStep State.registers
  cases c.pc <;> exact congrArg Fpga.registers (Function.update_of_ne h ..)

/-- All events of a run are as required exactly when a condition on the history before each holds, if
this is so of each event that is no statement of a handler, and of each statement in the states that
an invariant allows. -/
theorem each_iff_of_statements {I : State Board → List (Event Board) → Prop}
    {P : Event Board → Prop} {Q : List (Event Board) → Event Board → Prop}
    (hstep : ∀ {s log a s' out}, I s log → step modules s a = some (s', out) → I s' (log ++ out))
    (hother : ∀ log e, (∀ b pc n before after, e ≠ .access b pc n before after) → (P e ↔ Q log e))
    (hstatement : ∀ {s log b c}, I s log → (s.fpga b).handler = some c →
      (P (.access b c.pc c.n s.registers (runStep modules s b c).registers) ↔
        Q log (.access b c.pc c.n s.registers (runStep modules s b c).registers)))
    {registers : Board → Registers} (hinit : I (init registers) []) {acts : List (Act Board)}
    {log : List (Event Board)}
    (hrun : (machine modules).exec (init registers) acts = some (s, log)) :
    (∀ e ∈ log, P e) ↔ History.EachAfter Q log := by
  refine System.each_iff_eachAfter (I := I) ?_ ?_ hinit hrun
  · intro s log a s' out h hact
    exact hstep h hact
  · intro s log a s' out h hact
    cases move_of_step hact with
    | edge b bits => exact .inr ⟨_, rfl, hother _ _ nofun⟩
    | reset b => exact .inr ⟨_, rfl, hother _ _ nofun⟩
    | quiet b x _ _ _ => exact .inl rfl
    | ignore => exact .inl rfl
    | interrupt b status _ => exact .inl rfl
    | run b c hc => exact .inr ⟨_, rfl, hstatement h hc⟩
    | write b bytes => exact .inr ⟨_, rfl, hother _ _ nofun⟩

end IldDrivers.ExampleFpga.Handler
