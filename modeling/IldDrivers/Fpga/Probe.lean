import IldDrivers.Kernel
import IldDrivers.Lib.Ledger
import IldDrivers.Lib.Transition
import Mathlib.Data.PNat.Defs
import Mathlib.Tactic

/-!
# Probing and removing the devices of `example-fpga`

`example_fpga_probe` acquires the resources of a PCI device in three functions, each of which
unwinds its own failures; `example_fpga_remove` gives them back. What a call does with its resources
is a ledger, in the order of the source. The resources are named by the serial number of the probe
that acquires them, as the private structure is, which holds the mappings and the numbers of the
character device and stands in the driver data of the PCI device.

* `initializePciDevice`, `initializeCharDevice` and their `release` functions: the four parts;
* `probe`, `remove`: the two methods of the PCI driver;
* `system`: the PCI core, which probes a device that has no driver and removes the driver from one
  that has; a probe that returns a positive value counts as successful there.

`device_destroy` of a device that does not exist does nothing, and neither does the driver check what
`device_create` returns.
-/

namespace IldDrivers.ExampleFpga

/-! ### Resources -/

/-- The parts of the device that are mapped. -/
inductive Module
  | mem
  | leds
  | switches
  | controls
  deriving DecidableEq

/-- The minor numbers of a device. -/
inductive Minor
  | mem
  | leds
  | switches
  deriving DecidableEq

/-- In the order of the loops over `EXAMPLE_FPGA_NB_MINORS`. -/
def Minor.all : List Minor := [.mem, .leds, .switches]

inductive Resource
  /-- The private structure `example_fpga_s`. -/
  | fpga
  /-- `pci_enable_device`. -/
  | enabled
  | msi
  /-- The region of BAR 0. -/
  | region
  | mapping (m : Module)
  | irqHandler
  /-- The numbers given by `alloc_chrdev_region`. -/
  | chrdev
  /-- A device of the class. -/
  | device (i : Minor)
  | cdev
  deriving DecidableEq

abbrev Entry := LedgerEntry Resource

/-- What the calls inside a probe return: a failure is `none` or `false`, or a negative error
number, given by its absolute value. -/
structure Outcomes where
  kzalloc : Bool
  enableDevice : Option ℕ+
  enableMsi : Bool
  requestRegion : Option ℕ+
  ioremap : Module → Bool
  requestIrq : Bool
  allocChrdev : Bool
  createDevice : Minor → Bool
  cdevAdd : Option ℕ+

/-! ### The hardware side -/

/-- `iounmap` of these mappings, `pci_release_region`, `pci_disable_device`. -/
def unmap (ms : List Module) : List Entry :=
  ms.flatMap (fun m => [.use .fpga, .release (.mapping m)]) ++ [.release .region, .release .enabled]

/-- What `example_fpga_initialize_pci_device` returns, the value it has stored in `msi_enabled`, and
what it does with resources. -/
structure PciSetup where
  ret : ℤ
  msiEnabled : Bool
  log : List Entry

/-- `example_fpga_initialize_pci_device`. -/
def initializePciDevice (irq : ℕ) (o : Outcomes) : PciSetup :=
  match o.enableDevice with
  | some e => ⟨-(e : ℕ), false, []⟩
  | none =>
    let msi := o.enableMsi
    -- `msi_enabled` and `iobase` are stored in the structure
    let log : List Entry := List.flatten
      [[.acquire .enabled], if msi then [.acquire .msi] else [], [.use .fpga, .use .fpga]]
    match o.requestRegion with
    | some e => ⟨-(e : ℕ), msi, log ++ [.release .enabled]⟩
    | none =>
      let log := log ++ [.acquire .region, .use .fpga]
      if ¬ o.ioremap .mem then ⟨eInval, msi, log ++ unmap []⟩ else
      let log := log ++ [.acquire (.mapping .mem), .use .fpga]
      if ¬ o.ioremap .leds then ⟨eInval, msi, log ++ unmap [.mem]⟩ else
      let log := log ++ [.acquire (.mapping .leds), .use .fpga]
      if ¬ o.ioremap .switches then ⟨eInval, msi, log ++ unmap [.leds, .mem]⟩ else
      let log := log ++ [.acquire (.mapping .switches), .use .fpga]
      if ¬ o.ioremap .controls then ⟨eInval, msi, log ++ unmap [.switches, .leds, .mem]⟩ else
      let log := log ++ [.acquire (.mapping .controls)]
      if irq ≠ 0 ∧ ¬ o.requestIrq then
        ⟨eInval, msi, log ++ unmap [.controls, .switches, .leds, .mem]⟩
      else
      let log := log ++ if irq ≠ 0 then [.acquire .irqHandler] else []
      ⟨0, msi, log ++ [.use .fpga, .use (.mapping .switches), .use .fpga, .use (.mapping .switches),
        .use .fpga, .use (.mapping .controls)]⟩

/-- `example_fpga_release_pci_device`; `msi` is `msi_enabled`. -/
def releasePciDevice (irq : ℕ) (msi : Bool) : List Entry :=
  List.flatten
    [[.use .fpga, .use (.mapping .controls), .use .fpga, .use (.mapping .switches)],
      if irq ≠ 0 then [.release .irqHandler] else [],
      [.use .fpga, .release (.mapping .controls), .use .fpga, .release (.mapping .switches),
        .use .fpga, .release (.mapping .leds), .use .fpga, .release (.mapping .mem),
        .release .region, .use .fpga],
      if msi then [.release .msi] else [],
      [.release .enabled]]

/-! ### The user-space side -/

/-- `device_destroy` of one device of the class, if it exists. -/
def destroyDevice (created : Minor → Bool) (i : Minor) : List Entry :=
  .use .fpga :: if created i then [.release (.device i)] else []

/-- What `example_fpga_initialize_char_device` returns, the devices of the class that it leaves, and
what it does with resources. -/
structure CharSetup where
  ret : ℤ
  created : Minor → Bool
  log : List Entry

/-- `example_fpga_initialize_char_device`. -/
def initializeCharDevice (o : Outcomes) : CharSetup :=
  if ¬ o.allocChrdev then ⟨eInval, fun _ => false, [.release .fpga]⟩
  else
    let log := [.acquire .chrdev] ++
      Minor.all.flatMap (fun i =>
        .use .fpga :: if o.createDevice i then [.acquire (.device i)] else []) ++ [.use .fpga]
    match o.cdevAdd with
    | some e =>
        ⟨-(e : ℕ), fun i => o.createDevice i && i != .mem,
          log ++ destroyDevice o.createDevice .mem ++ [.use .fpga, .release .chrdev]⟩
    | none => ⟨0, o.createDevice, log ++ [.acquire .cdev]⟩

/-- `example_fpga_release_char_device`. -/
def releaseCharDevice (created : Minor → Bool) : List Entry :=
  [.use .fpga, .release .cdev] ++ Minor.all.flatMap (destroyDevice created) ++
    [.use .fpga, .release .chrdev]

/-! ### The methods of the PCI driver -/

/-- What `example_fpga_probe` returns, whether it leaves the structure in the driver data, what the
structure and the class then hold, and what it does with resources. -/
structure Probed where
  ret : ℤ
  hasDrvdata : Bool
  msiEnabled : Bool
  created : Minor → Bool
  log : List Entry

/-- `example_fpga_probe`. -/
def probe (irq : ℕ) (o : Outcomes) : Probed :=
  if irq = 0 then ⟨0, false, false, fun _ => false, []⟩
  else if ¬ o.kzalloc then ⟨-eNoMem, false, false, fun _ => false, []⟩
  else
    let log := [.acquire .fpga, .use .fpga, .use .fpga]
    let pci := initializePciDevice irq o
    if pci.ret ≠ 0 then
      ⟨pci.ret, false, pci.msiEnabled, fun _ => false, log ++ pci.log ++ [.release .fpga]⟩
    else
      let char := initializeCharDevice o
      let log := log ++ pci.log ++ char.log
      if char.ret ≠ 0 then
        ⟨char.ret, true, pci.msiEnabled, char.created,
          log ++ releasePciDevice irq pci.msiEnabled ++ [.release .fpga]⟩
      else ⟨0, true, pci.msiEnabled, char.created, log⟩

/-- `example_fpga_remove` of a device with driver data. -/
def remove (irq : ℕ) (msi : Bool) (created : Minor → Bool) : List Entry :=
  releaseCharDevice created ++ releasePciDevice irq msi ++ [.release .fpga]

/-! ### The machine -/

/-- A call of `probe` or `remove`: the device, the value returned, the driver data after it, the
probe that has acquired the resources it is about, and what it does with them. -/
structure Record (Dev : Type*) where
  dev : Dev
  isProbe : Bool
  ret : ℤ
  drvdata : Option ℕ
  serial : ℕ
  log : List Entry

structure State (Dev : Type*) where
  drvdata : Dev → Option ℕ
  /-- The PCI core has bound the driver to the device. -/
  bound : Dev → Bool
  /-- The number of probes. -/
  probes : ℕ
  /-- `msi_enabled` of each private structure. -/
  msiEnabled : ℕ → Bool
  /-- The devices of the class that exist. -/
  created : ℕ → Minor → Bool

inductive Act (Dev : Type*)
  | probe (d : Dev) (o : Outcomes)
  | remove (d : Dev)

variable {Dev : Type*} [DecidableEq Dev]

/-- The driver data that the next probe leaves. -/
def State.newDrvdata (s : State Dev) (r : Probed) : Option ℕ :=
  if r.hasDrvdata then some s.probes else none

/-- After a probe of the device `d`; it is bound if the value returned is not negative. -/
def State.probed (s : State Dev) (d : Dev) (r : Probed) : State Dev where
  drvdata := Function.update s.drvdata d (s.newDrvdata r)
  bound := Function.update s.bound d (decide (0 ≤ r.ret))
  probes := s.probes + 1
  msiEnabled := Function.update s.msiEnabled s.probes r.msiEnabled
  created := Function.update s.created s.probes r.created

/-- After the removal of the driver from the device `d`. -/
def State.unbound (s : State Dev) (d : Dev) : State Dev :=
  { s with bound := Function.update s.bound d false }

def step (irq : Dev → ℕ) (s : State Dev) : Act Dev → Option (State Dev × List (Record Dev))
  | .probe d o =>
      if s.bound d then none
      else
        let r := probe (irq d) o
        some (s.probed d r, [⟨d, true, r.ret, s.newDrvdata r, s.probes, r.log⟩])
  | .remove d =>
      if ¬ s.bound d then none
      else
        match s.drvdata d with
        | none => some (s.unbound d, [⟨d, false, 0, none, s.probes, []⟩])
        | some n =>
            some (s.unbound d,
              [⟨d, false, 0, some n, n, remove (irq d) (s.msiEnabled n) (s.created n)⟩])

/-- The PCI core and the driver, on devices with these interrupts. -/
def system (irq : Dev → ℕ) : System (State Dev) (Act Dev) (Record Dev) := ⟨step irq⟩

/-- The driver just registered. -/
def init (Dev : Type*) : State Dev :=
  ⟨fun _ => none, fun _ => false, 0, fun _ => false, fun _ _ => false⟩

end IldDrivers.ExampleFpga
