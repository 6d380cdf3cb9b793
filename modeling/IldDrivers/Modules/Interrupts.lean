import IldDrivers.Lib.Lifecycle

/-!
# Loading and unloading the drivers of a GPIO (`example-V-01`, `example-V-03` to `example-V-09`)

Each of these modules requests one or two GPIOs, most of them an interrupt too, and some register a
device. `example_init` undoes what it has done as soon as a call fails, `example_exit` undoes all. From
the moment when `request_irq` or `misc_register` has returned, the handler or the reads of the device
may run at any time, also while the module is still being loaded or is being unloaded.

`free_irq` removes the handler and waits for it, and for the thread of a threaded interrupt;
`tasklet_kill` and `flush_work` wait for a bottom half. `rmmod` is refused while a file is open, and
no file can be opened afterwards.

* `Loadable`: the modules, with `Loadable.workers` and `Loadable.code`;
* `Loadable.loads_and_unloads`: each of them finds what it uses and leaves nothing behind.

`example-V-01-with-fdt` is not here, for it is a platform driver, nor is `example-V-10`, which requests its
GPIO when the device is opened.
-/

namespace IldDrivers.Modules

/-! ### Resources and activities -/

inductive Resource
  /-- The module itself, its code and its data. -/
  | text
  | gpioIn
  | gpioOut
  | irq
  /-- The device registered by `misc_register`. -/
  | misc
  /-- The right to open the device. -/
  | access
  /-- `spin_lock_init` has been called. -/
  | spinlock
  deriving DecidableEq

inductive Activity
  /-- The handler, or the top half. -/
  | handler
  | bottomHalf
  /-- A call through an open file. -/
  | file
  deriving DecidableEq

instance : Fintype Activity :=
  ⟨{.handler, .bottomHalf, .file}, fun i => by cases i <;> decide⟩

/-- The modules that can be loaded. -/
inductive Loadable
  | v01
  | v03
  | v04
  | v05
  | v06
  | v07
  | v08
  | v09
  | select

open Code

/-- The end of a load that has failed, and of `rmmod`. -/
def freeModule : Code Resource Activity := release .text done

/-- `gpio_free(EXAMPLE_GPIO_OUT)`, `gpio_free(EXAMPLE_GPIO_IN)`. -/
def gpioFreeBoth (next : Code Resource Activity) : Code Resource Activity :=
  release .gpioOut (release .gpioIn next)

/-- `example_init` up to the last call, in `example-V-01` and `example-V-03` to `example-V-06`. -/
def requestBoth (last : Code Resource Activity) : Code Resource Activity :=
  attempt (some .gpioIn)
    (attempt (some .gpioOut)
      -- `gpio_direction_input`, `gpio_direction_output`
      (attempt none
        (attempt none last (gpioFreeBoth freeModule))
        (gpioFreeBoth freeModule))
      (release .gpioIn freeModule))
    freeModule

/-- `free_irq`. -/
def freeIrq (next : Code Resource Activity) : Code Resource Activity :=
  release .irq (synchronize .handler next)

/-- `misc_deregister` in `example_exit`, which is entered when no file is open. -/
def miscDeregister (next : Code Resource Activity) : Code Resource Activity :=
  retire .file .access (release .misc next)

/-! ### The modules -/

/-- `example-V-01`: reads and writes of the two GPIOs. -/
def exampleV01 : Code Resource Activity :=
  requestBoth (attempt (some .misc)
    (setup .access (miscDeregister (gpioFreeBoth freeModule)))
    (gpioFreeBoth freeModule))

/-- `example-V-03` to `example-V-06`; `wait` is what `example_exit` does about the bottom half. -/
def exampleV03to06 (wait : Code Resource Activity → Code Resource Activity) :
    Code Resource Activity :=
  requestBoth (attempt (some .irq)
    (freeIrq (wait (gpioFreeBoth freeModule)))
    (gpioFreeBoth freeModule))

/-- `example-V-07` to `example-V-09` and `example-select`. -/
def exampleV07to09 : Code Resource Activity :=
  attempt (some .gpioIn)
    (attempt none
      (setup .spinlock
        (attempt (some .irq)
          (attempt (some .misc)
            (setup .access (miscDeregister (freeIrq (release .gpioIn freeModule))))
            (freeIrq (release .gpioIn freeModule)))
          (release .gpioIn freeModule)))
      (release .gpioIn freeModule))
    freeModule

/-- `insmod` and, when `example_init` has returned 0, `rmmod`. -/
def Loadable.code : Loadable → Code Resource Activity
  | .v01 => setup .text exampleV01
  | .v03 => setup .text (exampleV03to06 fun next => next)
  -- `tasklet_kill`
  | .v04 => setup .text (exampleV03to06 fun next => flush .bottomHalf next)
  -- `flush_work`
  | .v05 => setup .text (exampleV03to06 fun next => flush .bottomHalf next)
  -- `free_irq` stops the thread of the interrupt
  | .v06 => setup .text (exampleV03to06 fun next => flush .bottomHalf next)
  | .v07 | .v08 | .v09 | .select => setup .text exampleV07to09

/-- What the handler, the bottom half and the calls through a file use. An interrupt comes in through
the first GPIO. -/
def Loadable.body : Loadable → Activity → List (Deed Resource Activity)
  | .v01, .file => [.use .text, .use .gpioIn, .use .gpioOut]
  | .v03, .handler => [.use .gpioIn, .use .text, .use .gpioOut]
  | .v04, .handler | .v05, .handler | .v06, .handler =>
      [.use .gpioIn, .use .text, .arm .bottomHalf]
  | .v04, .bottomHalf | .v05, .bottomHalf | .v06, .bottomHalf => [.use .text, .use .gpioOut]
  | .v07, .handler | .v08, .handler | .v09, .handler | .select, .handler =>
      [.use .gpioIn, .use .text, .use .spinlock]
  | .v07, .file | .v08, .file | .v09, .file | .select, .file => [.use .text, .use .spinlock]
  | _, _ => []

def Loadable.workers (m : Loadable) : Workers Resource Activity where
  source
    | .handler => some .irq
    | .bottomHalf => none
    | .file => some .access
  body := m.body

theorem Loadable.safe (m : Loadable) : m.workers.Safe {.spinlock} ∅ ∅ m.code := by
  cases m <;> decide

/-- **Loading and unloading leaves nothing behind.** For each of these modules, in every order of the
calls that load and unload it, of its interrupts, bottom halves and file operations, whichever call
fails: no handler, bottom half or file operation runs when the module, a GPIO or the lock it uses is
not there; nothing is freed that is not held; in the end nothing is held or left to run; and the end
can always be reached. -/
theorem Loadable.loads_and_unloads (m : Loadable) : m.workers.Correct {.spinlock} m.code :=
  Workers.correct_of_safe m.safe

end IldDrivers.Modules
