import IldDrivers.Lib.Lifecycle

/-!
# Loading and unloading the modules that register something

The modules of the other chapters register a device number, a character device, a class, a `misc`
device or a file of `/proc`, or start a thread or a timer. As soon as it is registered, the file can
be opened and its functions called.

`rmmod` is refused while a device is open, and no device can be opened afterwards. A file of `/proc`
may be in use: `proc_remove` and `remove_proc_entry` wait for the calls in progress. `kthread_stop`
and `hrtimer_cancel` wait for the round of the thread or the callback in progress, after which there is
no other.

* `Registering`: the modules, with `Registering.workers` and `Registering.code`;
* `Registering.registers_and_unregisters`: each of them finds what it uses and leaves nothing behind.

`example-III-03` and `example-V-11` are not here: their `timer_delete` does not wait. Nor are
`example-VI-02` and `example-VI-03`, in which one interface is used through the other, or `tp-IV-04` and
`example-fpga`, which register several devices in a loop.
-/

namespace IldDrivers.Modules

/-- The modules that can be loaded. -/
inductive Registering
  | iv01
  | iv02
  | iv03
  /-- `example-IV-04` to `example-IV-08`, `tp-IV-01` to `tp-IV-03`, `tp-V-01` to `tp-V-04`. -/
  | misc
  /-- `example-II-02` to `example-II-06`, `tp-II-03`, `tp-III-02`. -/
  | proc
  | tpII02
  | v02
  | iii04

namespace Registering

/-! ### Resources and activities -/

inductive Resource
  /-- The module itself, its code and its data. -/
  | text
  /-- The numbers of `alloc_chrdev_region`. -/
  | region
  | cdev
  /-- What `class_create` returns. -/
  | deviceClass
  /-- The entry made by `device_create`. -/
  | device
  /-- The device of `misc_register`, or the file of `proc_create`. -/
  | file
  /-- The directory of `proc_mkdir`. -/
  | directory
  /-- The right to open the device. -/
  | access
  deriving DecidableEq

inductive Activity
  /-- A call through an open file. -/
  | file
  /-- A round of the thread. -/
  | thread
  /-- The callback of the timer. -/
  | timer
  deriving DecidableEq

instance : Fintype Activity := ⟨{.file, .thread, .timer}, fun i => by cases i <;> decide⟩

open Code

/-- The end of a load that has failed, and of `rmmod`. -/
def freeModule : Code Resource Activity := release .text done

/-! ### Devices -/

/-- `example-IV-01`: a range of numbers. -/
def exampleIV01 : Code Resource Activity :=
  attempt (some .region) (release .region freeModule) freeModule

/-- `example-IV-02`: a character device. -/
def exampleIV02 : Code Resource Activity :=
  attempt (some .region)
    (attempt (some .cdev)
      (setup .access (retire .file .access (release .cdev (release .region freeModule))))
      (release .region freeModule))
    freeModule

/-- `device_destroy`, which does nothing when `device_create` has failed. -/
def deviceDestroy (created : Bool) (next : Code Resource Activity) : Code Resource Activity :=
  if created then release .device next else next

/-- `example-IV-03` after `device_create`, the result of which it does not look at. -/
def exampleIV03Cdev (created : Bool) : Code Resource Activity :=
  attempt (some .cdev)
    (setup .access (retire .file .access
      (deviceDestroy created (release .deviceClass (release .cdev (release .region freeModule))))))
    (deviceDestroy created (release .deviceClass (release .region freeModule)))

/-- `example-IV-03`: a character device with an entry in a class of its own. -/
def exampleIV03 : Code Resource Activity :=
  attempt (some .region)
    (attempt (some .deviceClass)
      (attempt (some .device) (exampleIV03Cdev true) (exampleIV03Cdev false))
      (release .region freeModule))
    freeModule

/-- The modules whose `init` is a call to `misc_register`. -/
def miscDevice : Code Resource Activity :=
  attempt (some .file) (setup .access (retire .file .access (release .file freeModule))) freeModule

/-! ### Files of `/proc` -/

/-- `proc_remove`, `remove_proc_entry` of a file. -/
def procRemove (next : Code Resource Activity) : Code Resource Activity :=
  release .file (synchronize .file next)

/-- One file of `/proc`. -/
def procFile : Code Resource Activity := attempt (some .file) (procRemove freeModule) freeModule

/-- `tp-II-02`: a file in a directory of its own. -/
def procDirectory : Code Resource Activity :=
  attempt (some .directory)
    (attempt (some .file)
      (procRemove (release .directory freeModule))
      (release .directory freeModule))
    freeModule

/-! ### Threads and timers -/

/-- `example-V-02`: `kthread_run` and `kthread_stop`. -/
def exampleV02 : Code Resource Activity :=
  attempt none (arm .thread (cancel .thread freeModule)) freeModule

/-- `example-III-04`: `hrtimer_start` and `hrtimer_cancel`. -/
def exampleIII04 : Code Resource Activity := arm .timer (cancel .timer freeModule)

/-! ### The modules -/

/-- `insmod` and, when `init` has returned 0, `rmmod`. -/
def code : Registering → Code Resource Activity
  | .iv01 => setup .text exampleIV01
  | .iv02 => setup .text exampleIV02
  | .iv03 => setup .text exampleIV03
  | .misc => setup .text miscDevice
  | .proc => setup .text procFile
  | .tpII02 => setup .text procDirectory
  | .v02 => setup .text exampleV02
  | .iii04 => setup .text exampleIII04

/-- What a call through a file, a round of the thread and the callback use. -/
def body : Registering → Activity → List (Deed Resource Activity)
  | .iv02, .file => [.use .text, .use .cdev]
  | .iv03, .file => [.use .text, .use .cdev, .use .region]
  | .misc, .file => [.use .text, .use .file]
  | .proc, .file => [.use .text]
  | .tpII02, .file => [.use .text, .use .directory]
  | .v02, .thread => [.use .text, .arm .thread]
  | .iii04, .timer => [.use .text, .arm .timer]
  | _, _ => []

def workers (m : Registering) : Workers Resource Activity where
  source
    | .file =>
        match m with
        | .proc | .tpII02 => some .file
        | _ => some .access
    | .thread | .timer => none
  body := m.body

theorem safe (m : Registering) : m.workers.Safe ∅ ∅ ∅ m.code := by
  cases m <;> decide

/-- **Loading and unloading leaves nothing behind**, in every order of the calls that load and unload
the module, of the calls through its files, of the rounds of its thread and of its timer, whichever call
fails. -/
theorem registers_and_unregisters (m : Registering) : m.workers.Correct ∅ m.code :=
  Workers.correct_of_safe m.safe

end Registering

end IldDrivers.Modules
