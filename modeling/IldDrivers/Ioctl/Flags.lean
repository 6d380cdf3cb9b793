import IldDrivers.Counters.Driver

/-!
# Variables set by an `ioctl` (`tp-IV-03`, `example-IV-06`, `example-fpga`)

Three drivers have an `int` that an `ioctl` sets: the step of the counter, the flag of `example-IV-06`
that asks for the parent's number, and the `irq_handling` of a board. Each gives the address of the
variable itself to `copy_from_user`, and a copy that stops on an unreadable page has by then written
what it could read and zeros after it.

* `iow`: the commands that the headers define;
* `failing_ioctl_iff`: when a call that fails has left the variable as it was.
-/

namespace IldDrivers

open Counters

namespace Ioctl

/-- An `ioctl`: also how many bytes can be written at the address `arg`, and what `access_ok` says of
this address and a size. -/
structure Args extends IoctlArgs where
  copied : ℕ
  accessOk : ℕ → Bool

/-- `_IOC`. -/
def ioc (dir type nr size : ℕ) : ℕ := dir * 2 ^ 30 + size * 2 ^ 16 + type * 2 ^ 8 + nr

/-- `_IOW`. -/
def iow (type nr size : ℕ) : ℕ := ioc 1 type nr size

/-- `_IOC_SIZE`. -/
def iocSize (cmd : ℕ) : ℕ := cmd / 2 ^ 16 % 2 ^ 14

/-- `_IOC_DIR`. -/
def iocDir (cmd : ℕ) : ℕ := cmd / 2 ^ 30 % 2 ^ 2

/-- `_IOC_DIR(cmd) & _IOC_WRITE`. -/
def iocWrite (cmd : ℕ) : Bool := (iocDir cmd).testBit 0

/-- `_IOC_DIR(cmd) & _IOC_READ`. -/
def iocRead (cmd : ℕ) : Bool := (iocDir cmd).testBit 1

theorem iocType_ioc {dir type nr size : ℕ} (htype : type < 2 ^ 8) (hnr : nr < 2 ^ 8) :
    iocType (ioc dir type nr size) = type := by
  unfold iocType ioc
  omega

theorem iocNr_ioc {dir type nr size : ℕ} (hnr : nr < 2 ^ 8) : iocNr (ioc dir type nr size) = nr := by
  unfold iocNr ioc
  omega

/-- The `switch` over the commands that read and set an `int`. -/
def flagSwitch (getCommand setCommand : ℕ) (flag : ℤ) (a : Args) : ℤ × Reply :=
  if iocNr a.cmd = getCommand then
    let (text, left) := copyToUser (leBytes 4 flag) a.copied
    (flag, ⟨if left ≠ 0 then -eFault else 0, text, 0⟩)
  else if iocNr a.cmd = setCommand then
    (intOfBytes (copiedBytes a.user 4), ⟨if 4 - a.user.length ≠ 0 then -eFault else 0, [], 0⟩)
  else (flag, ⟨-eNoTty, [], 0⟩)

end Ioctl

open Ioctl

/-! ### `example-IV-06` -/

namespace ExampleIV06

def exampleIoctlMagic : ℕ := 120
def internalGetPpidFlag : ℕ := 1
def internalSetPpidFlag : ℕ := 2

/-- `EXAMPLE_SET_PPID_FLAG`. -/
def exampleSetPpidFlag : ℕ := iow exampleIoctlMagic internalSetPpidFlag 4

/-- `example_ioctl`, with the value of `example_ppid_flag` after it. -/
def ioctl (examplePpidFlag : ℤ) (a : Args) : ℤ × Reply :=
  if iocType a.cmd ≠ exampleIoctlMagic then (examplePpidFlag, ⟨-eNoTty, [], 0⟩)
  else flagSwitch internalGetPpidFlag internalSetPpidFlag examplePpidFlag a

end ExampleIV06

/-! ### `example-fpga` -/

namespace ExampleFpga

def ioctlMagicNumber : ℕ := 70
def ioctlCommandGetEnableIrq : ℕ := 1
def ioctlCommandSetEnableIrq : ℕ := 2

/-- `FPGAIOCSENIRQ`, on a machine whose pointers have eight bytes. -/
def fpgaiocsenirq : ℕ := iow ioctlMagicNumber ioctlCommandSetEnableIrq 8

/-- `example_fpga_ioctl`, with the value of `irq_handling` after it. -/
def ioctl (irqHandling : ℤ) (a : Args) : ℤ × Reply :=
  if iocType a.cmd ≠ ioctlMagicNumber then (irqHandling, ⟨-eNoTty, [], 0⟩)
  else if iocRead a.cmd ∧ ¬ a.accessOk (iocSize a.cmd) then (irqHandling, ⟨-eFault, [], 0⟩)
  else if iocWrite a.cmd ∧ ¬ a.accessOk (iocSize a.cmd) then (irqHandling, ⟨-eFault, [], 0⟩)
  else flagSwitch ioctlCommandGetEnableIrq ioctlCommandSetEnableIrq irqHandling a

/-- The checks of the direction let the command through. -/
def Accessible (a : Args) : Prop := iocDir a.cmd ≠ 0 → a.accessOk (iocSize a.cmd)

end ExampleFpga

/-! ### Calls that fail -/

namespace Ioctl

/-- A copy to an `int` with this value stops early, and what it has written by then is another
value. -/
def Clobbers (value : ℤ) (user : List UInt8) : Prop :=
  user.length < 4 ∧ intOfBytes (copiedBytes user 4) ≠ value

/-- A copy of the four bytes fails when there is one that cannot be read. -/
theorem copy_fails_iff (user : List UInt8) :
    (if 4 - user.length ≠ 0 then -eFault else 0) < 0 ↔ user.length < 4 := by
  split_ifs with hleft
  · simp only [eFault]
    omega
  · omega

/-- What `flagSwitch` makes of a command that sets. -/
theorem flagSwitch_set {getCommand setCommand : ℕ} {a : Args} (flag : ℤ)
    (hne : getCommand ≠ setCommand) (hset : iocNr a.cmd = setCommand) :
    flagSwitch getCommand setCommand flag a =
      (intOfBytes (copiedBytes a.user 4),
        ⟨if 4 - a.user.length ≠ 0 then -eFault else 0, [], 0⟩) := by
  have hget : iocNr a.cmd ≠ getCommand := by
    intro h
    exact hne (h.symm.trans hset)
  rw [flagSwitch, if_neg hget, if_pos hset]

/-- A command that does not set leaves the variable as it is. -/
theorem flagSwitch_fst {setCommand : ℕ} {a : Args} (getCommand : ℕ) (flag : ℤ)
    (hset : iocNr a.cmd ≠ setCommand) : (flagSwitch getCommand setCommand flag a).1 = flag := by
  rw [flagSwitch, if_neg hset]
  split_ifs <;> rfl

/-- The `switch` fails without a trace, unless it clobbers the variable. -/
theorem flagSwitch_fails_iff {getCommand setCommand : ℕ} (hne : getCommand ≠ setCommand)
    (flag : ℤ) (a : Args) :
    ((flagSwitch getCommand setCommand flag a).2.ret < 0 →
        (flagSwitch getCommand setCommand flag a).1 = flag) ↔
      ¬ (iocNr a.cmd = setCommand ∧ Clobbers flag a.user) := by
  by_cases hset : iocNr a.cmd = setCommand
  · rw [flagSwitch_set flag hne hset]
    simp only [copy_fails_iff, hset, true_and, Clobbers, ne_eq, not_and, not_not]
  · have hflag := flagSwitch_fst getCommand flag hset
    constructor
    · rintro - ⟨h, -⟩
      exact hset h
    · intro _ _
      exact hflag

end Ioctl

/-- A command that sets the step. -/
theorem Counters.TpIV03.counterIoctl_set (s : TpIV03.State) {a : IoctlArgs}
    (htype : iocType a.cmd = counterIoctlMagic) (hnr : iocNr a.cmd = setStepCommand) :
    TpIV03.counterIoctl s a =
      (⟨s.counter, intOfBytes (copiedBytes a.user 4)⟩,
        ⟨if 4 - a.user.length ≠ 0 then -eFault else 0, [], 0⟩) := by
  simp only [TpIV03.counterIoctl, ioctlCall_set _ htype hnr]
  rw [Option.elim_some]

/-- `counter_ioctl`. -/
theorem Counters.TpIV03.counterIoctl_fails_iff (s : TpIV03.State) (a : IoctlArgs) :
    ((TpIV03.counterIoctl s a).2.ret < 0 →
        (TpIV03.counterIoctl s a).1.counterStep = s.counterStep) ↔
      ¬ (iocType a.cmd = counterIoctlMagic ∧ iocNr a.cmd = setStepCommand ∧
        Clobbers s.counterStep a.user) := by
  by_cases hset : iocType a.cmd = counterIoctlMagic ∧ iocNr a.cmd = setStepCommand
  · rw [TpIV03.counterIoctl_set s hset.1 hset.2]
    simp only [copy_fails_iff, hset.1, hset.2, true_and, Clobbers, ne_eq, not_and, not_not]
  · have hcall := ioctlCall_other 4 (Decidable.not_and_iff_not_or_not.mp hset)
    constructor
    · rintro - ⟨hmagic, hnr, -⟩
      exact hset ⟨hmagic, hnr⟩
    · intro _ _
      simp only [TpIV03.counterIoctl, hcall, Option.elim_none]

/-- `example_ioctl`. -/
theorem ExampleIV06.ioctl_fails_iff (examplePpidFlag : ℤ) (a : Args) :
    ((ExampleIV06.ioctl examplePpidFlag a).2.ret < 0 →
        (ExampleIV06.ioctl examplePpidFlag a).1 = examplePpidFlag) ↔
      ¬ (iocType a.cmd = exampleIoctlMagic ∧ iocNr a.cmd = internalSetPpidFlag ∧
        Clobbers examplePpidFlag a.user) := by
  by_cases hmagic : iocType a.cmd = exampleIoctlMagic
  · rw [ExampleIV06.ioctl, if_neg (by simpa using hmagic)]
    simp only [flagSwitch_fails_iff (show internalGetPpidFlag ≠ internalSetPpidFlag by decide),
      hmagic, true_and]
  · simp [ExampleIV06.ioctl, hmagic]

namespace ExampleFpga

theorem iocDir_eq_zero_iff (cmd : ℕ) :
    iocDir cmd = 0 ↔ iocRead cmd = false ∧ iocWrite cmd = false := by
  have hlt : iocDir cmd < 4 := Nat.mod_lt _ (by decide)
  rw [iocRead, iocWrite]
  interval_cases iocDir cmd <;> decide

/-- A command that reaches the `switch`. -/
theorem ioctl_of_accessible {a : Args} (irqHandling : ℤ)
    (hmagic : iocType a.cmd = ioctlMagicNumber) (hok : Accessible a) :
    ioctl irqHandling a =
      flagSwitch ioctlCommandGetEnableIrq ioctlCommandSetEnableIrq irqHandling a := by
  have hdir := iocDir_eq_zero_iff a.cmd
  unfold Accessible at hok
  rw [ioctl, if_neg (by simpa using hmagic), if_neg (by simp_all), if_neg (by simp_all)]

/-- A command that is refused before it. -/
theorem ioctl_of_not_accessible {a : Args} (irqHandling : ℤ) (hok : ¬ Accessible a) :
    (ioctl irqHandling a).1 = irqHandling := by
  have hdir := iocDir_eq_zero_iff a.cmd
  unfold Accessible at hok
  rw [ioctl]
  split_ifs with hmagic hread hwrite
  · rfl
  · rfl
  · rfl
  · simp_all

end ExampleFpga

/-- `example_fpga_ioctl`. -/
theorem ExampleFpga.ioctl_fails_iff (irqHandling : ℤ) (a : Args) :
    ((ExampleFpga.ioctl irqHandling a).2.ret < 0 →
        (ExampleFpga.ioctl irqHandling a).1 = irqHandling) ↔
      ¬ (iocType a.cmd = ioctlMagicNumber ∧ Accessible a ∧
        iocNr a.cmd = ioctlCommandSetEnableIrq ∧ Clobbers irqHandling a.user) := by
  by_cases hmagic : iocType a.cmd = ioctlMagicNumber
  · by_cases hok : Accessible a
    · rw [ioctl_of_accessible irqHandling hmagic hok]
      simp only [flagSwitch_fails_iff
        (show ioctlCommandGetEnableIrq ≠ ioctlCommandSetEnableIrq by decide), hmagic, hok,
        true_and]
    · simp [ioctl_of_not_accessible irqHandling hok, hok]
  · simp [ExampleFpga.ioctl, hmagic]

namespace Ioctl

/-- A call that fails has left its variable as it was, except when it has come to set it, the copy
stops early, and the variable was not by chance what the copy has made of it. -/
theorem failing_ioctl_iff (a : Args) :
    (∀ s : TpIV03.State,
      ((TpIV03.counterIoctl s a.toIoctlArgs).2.ret < 0 →
          (TpIV03.counterIoctl s a.toIoctlArgs).1.counterStep = s.counterStep) ↔
        ¬ (iocType a.cmd = counterIoctlMagic ∧ iocNr a.cmd = setStepCommand ∧
          Clobbers s.counterStep a.user)) ∧
    (∀ examplePpidFlag : ℤ,
      ((ExampleIV06.ioctl examplePpidFlag a).2.ret < 0 →
          (ExampleIV06.ioctl examplePpidFlag a).1 = examplePpidFlag) ↔
        ¬ (iocType a.cmd = ExampleIV06.exampleIoctlMagic ∧
          iocNr a.cmd = ExampleIV06.internalSetPpidFlag ∧ Clobbers examplePpidFlag a.user)) ∧
    ∀ irqHandling : ℤ,
      ((ExampleFpga.ioctl irqHandling a).2.ret < 0 →
          (ExampleFpga.ioctl irqHandling a).1 = irqHandling) ↔
        ¬ (iocType a.cmd = ExampleFpga.ioctlMagicNumber ∧ ExampleFpga.Accessible a ∧
          iocNr a.cmd = ExampleFpga.ioctlCommandSetEnableIrq ∧ Clobbers irqHandling a.user) := by
  refine ⟨?_, ?_, ?_⟩
  · intro s
    exact TpIV03.counterIoctl_fails_iff s a.toIoctlArgs
  · intro examplePpidFlag
    exact ExampleIV06.ioctl_fails_iff examplePpidFlag a
  · intro irqHandling
    exact ExampleFpga.ioctl_fails_iff irqHandling a

/-- `COUNTER_SET_STEP`, `EXAMPLE_SET_PPID_FLAG` and `FPGAIOCSENIRQ` (of the size of a pointer), with an
address where nothing can be read: the variable was 1 and becomes 0, the call returns `-EFAULT`. -/
theorem failing_ioctl_clears :
    (TpIV03.counterIoctl ⟨0, 1⟩ ⟨iow counterIoctlMagic setStepCommand 4, []⟩ =
        (⟨0, 0⟩, ⟨-eFault, [], 0⟩) ∧
      ¬ ((TpIV03.counterIoctl ⟨0, 1⟩ ⟨iow counterIoctlMagic setStepCommand 4, []⟩).2.ret < 0 →
        (TpIV03.counterIoctl ⟨0, 1⟩
          ⟨iow counterIoctlMagic setStepCommand 4, []⟩).1.counterStep = 1)) ∧
    (ExampleIV06.ioctl 1 ⟨⟨ExampleIV06.exampleSetPpidFlag, []⟩, 0, fun _ => true⟩ =
        (0, ⟨-eFault, [], 0⟩) ∧
      ¬ ((ExampleIV06.ioctl 1 ⟨⟨ExampleIV06.exampleSetPpidFlag, []⟩, 0, fun _ => true⟩).2.ret < 0 →
        (ExampleIV06.ioctl 1 ⟨⟨ExampleIV06.exampleSetPpidFlag, []⟩, 0, fun _ => true⟩).1 = 1)) ∧
    (ExampleFpga.ioctl 1 ⟨⟨ExampleFpga.fpgaiocsenirq, []⟩, 0, fun _ => true⟩ =
        (0, ⟨-eFault, [], 0⟩) ∧
      ¬ ((ExampleFpga.ioctl 1 ⟨⟨ExampleFpga.fpgaiocsenirq, []⟩, 0, fun _ => true⟩).2.ret < 0 →
        (ExampleFpga.ioctl 1 ⟨⟨ExampleFpga.fpgaiocsenirq, []⟩, 0, fun _ => true⟩).1 = 1)) := by
  have hzero : intOfBytes (copiedBytes [] 4) = 0 := by
    simp [intOfBytes, copiedBytes, leVal, cInt]
  have hcounter : TpIV03.counterIoctl ⟨0, 1⟩ ⟨iow counterIoctlMagic setStepCommand 4, []⟩ =
      (⟨0, 0⟩, ⟨-eFault, [], 0⟩) := by
    rw [TpIV03.counterIoctl_set _ (iocType_ioc (by decide) (by decide)) (iocNr_ioc (by decide)),
      hzero]
    rfl
  have hflag : ExampleIV06.ioctl 1 ⟨⟨ExampleIV06.exampleSetPpidFlag, []⟩, 0, fun _ => true⟩ =
      (0, ⟨-eFault, [], 0⟩) := by
    have htype : iocType ExampleIV06.exampleSetPpidFlag = ExampleIV06.exampleIoctlMagic :=
      iocType_ioc (by decide) (by decide)
    rw [ExampleIV06.ioctl, if_neg (not_not_intro htype),
      flagSwitch_set _ (by decide) (iocNr_ioc (by decide)), hzero]
    rfl
  have hirq : ExampleFpga.ioctl 1 ⟨⟨ExampleFpga.fpgaiocsenirq, []⟩, 0, fun _ => true⟩ =
      (0, ⟨-eFault, [], 0⟩) := by
    rw [ExampleFpga.ioctl_of_accessible _ (iocType_ioc (by decide) (by decide)) (fun _ => rfl),
      flagSwitch_set _ (by decide) (iocNr_ioc (by decide)), hzero]
    rfl
  refine ⟨⟨hcounter, ?_⟩, ⟨hflag, ?_⟩, hirq, ?_⟩
  · rw [hcounter]
    decide
  · rw [hflag]
    decide
  · rw [hirq]
    decide

end Ioctl

end IldDrivers
