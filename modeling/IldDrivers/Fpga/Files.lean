import IldDrivers.Fpga.Unwinding

/-!
# The open files of `example-fpga`

`example_fpga_open` allocates a structure for the file, which points to the private structure of the
device; the other methods of the file follow both pointers. Nothing counts the files of a device,
and nothing frees the structure of a file.

* `Files.system`: files opened, used and closed while devices are probed and removed;
* `Files.Live`: what an open file points to exists, and what has been allocated for a file belongs
  to an open one;
* `Files.live_iff`: the runs that stay so.
-/

namespace IldDrivers.ExampleFpga.Files

variable {Dev File : Type*}

/-- `struct example_fpga_file_private_s`: the private structure of the device, by the serial number
of its probe, and the minor. -/
structure FilePrivate where
  fpga : ℕ
  minor : Minor

/-- An open file: its node, of the character device in the structure `cdev`, and
`filp->private_data`. -/
structure OpenFile where
  cdev : ℕ
  minor : Minor
  privateData : ℕ

structure State (Dev File : Type*) where
  driver : ExampleFpga.State Dev
  /-- The resources of the devices that are held. -/
  held : ℕ × Resource → ℕ
  /-- `module_open[]` of each private structure. -/
  moduleOpen : ℕ → Minor → ℤ
  file : File → Option OpenFile
  /-- The structures allocated by `example_fpga_open`: their number, their contents, and those that
  have not been freed. -/
  allocated : ℕ
  filePrivate : ℕ → FilePrivate
  live : ℕ → Bool

inductive Method
  | read
  | write
  | ioctl
  deriving DecidableEq

inductive Act (Dev File : Type*)
  /-- A probe or a removal. -/
  | driver (a : ExampleFpga.Act Dev)
  /-- `open` of a node of the character device in the structure `n`, with what `kmalloc` returns. -/
  | openFile (f : File) (n : ℕ) (i : Minor) (kmalloc : Bool)
  | call (f : File) (m : Method)
  | close (f : File)

inductive Event (File : Type*)
  | opened (f : File) (ret : ℤ)
  /-- A method of the file has followed its pointers: whether the structure of the file and the one
  of the device were there. -/
  | followed (f : File) (file device : Bool)

variable [DecidableEq Dev] [DecidableEq File]

/-- The structure of a device and its mappings are held. -/
def State.deviceLive (s : State Dev File) (n : ℕ) : Bool :=
  decide (0 < s.held (n, .fpga)) && decide (0 < s.held (n, .mapping .mem)) &&
    decide (0 < s.held (n, .mapping .leds)) && decide (0 < s.held (n, .mapping .switches)) &&
    decide (0 < s.held (n, .mapping .controls))

/-- What a method of the open file finds at the end of its pointers. -/
def State.follow (s : State Dev File) (f : File) (o : OpenFile) : Event File :=
  .followed f (s.live o.privateData) (s.deviceLive (s.filePrivate o.privateData).fpga)

/-- The file has been opened. -/
def State.opened (s : State Dev File) (f : File) (n : ℕ) (i : Minor) : State Dev File :=
  { s with
    allocated := s.allocated + 1
    filePrivate := Function.update s.filePrivate s.allocated ⟨n, i⟩
    live := Function.update s.live s.allocated true
    file := Function.update s.file f (some ⟨n, i, s.allocated⟩)
    moduleOpen := Function.update s.moduleOpen n
      (Function.update (s.moduleOpen n) i (s.moduleOpen n i + 1)) }

/-- `example_fpga_open`. -/
def openFile (s : State Dev File) (f : File) (n : ℕ) (i : Minor) (kmalloc : Bool) :
    State Dev File × ℤ :=
  if s.moduleOpen n i ≠ 0 then (s, -eBusy)
  else if ¬ kmalloc then (s, -eNoMem)
  else (s.opened f n i, 0)

/-- `example_fpga_release`. -/
def release (s : State Dev File) (f : File) (o : OpenFile) : State Dev File :=
  let n := (s.filePrivate o.privateData).fpga
  { s with
    file := Function.update s.file f none
    moduleOpen := Function.update s.moduleOpen n
      (Function.update (s.moduleOpen n) o.minor (s.moduleOpen n o.minor - 1)) }

def step (irq : Dev → ℕ) (s : State Dev File) :
    Act Dev File → Option (State Dev File × List (Event File))
  | .driver a =>
      (ExampleFpga.step irq s.driver a).map fun r =>
        ({ s with driver := r.1, held := Ledger.after s.held (ledger r.2) }, [])
  | .openFile f n i kmalloc =>
      -- the node is that of a character device which is registered
      if s.file f = none ∧ 0 < s.held (n, .cdev) then
        let r := openFile s f n i kmalloc
        some (r.1, [.opened f r.2])
      else none
  | .call f _ => (s.file f).map fun o => (s, [s.follow f o])
  | .close f => (s.file f).map fun o => (release s f o, [s.follow f o])

def system (irq : Dev → ℕ) (File : Type*) [DecidableEq File] :
    System (State Dev File) (Act Dev File) (Event File) := ⟨step irq⟩

/-- The driver just registered. -/
def init (Dev File : Type*) : State Dev File :=
  ⟨ExampleFpga.init Dev, fun _ => 0, fun _ _ => 0, fun _ => none, 0, fun _ => ⟨0, .mem⟩,
    fun _ => false⟩

/-! ### What is expected -/

/-- What an open file points to exists, and what has been allocated for a file belongs to an open
one. -/
structure Live (s : State Dev File) : Prop where
  pointers : ∀ f o, s.file f = some o → s.live o.privateData = true ∧
    s.deviceLive (s.filePrivate o.privateData).fpga = true
  owned : ∀ k, s.live k = true → ∃ f o, s.file f = some o ∧ o.privateData = k

/-- The step is not the closing of a file, nor the removal of a device of which a file is open. -/
def Keeps (s : State Dev File) : Act Dev File → Prop
  | .close _ => False
  | .driver (.remove d) => ∀ f o, s.file f = some o →
      s.driver.drvdata d ≠ some (s.filePrivate o.privateData).fpga
  | _ => True

/-! ### The devices -/

/-- What is known of the resources of a probe at any time. -/
structure Known (held : Resource → ℕ) : Prop where
  fpga_le : held .fpga ≤ 1
  cdev_le : held .cdev ≤ 1
  /-- The character device is the last to be registered and the first to go. -/
  mapped : 0 < held .cdev → 0 < held .fpga ∧ ∀ m, 0 < held (.mapping m)

theorem acquire_notMem_initializePciDevice (irq : ℕ) (o : Outcomes) :
    LedgerEntry.acquire Resource.fpga ∉ (initializePciDevice irq o).log ∧
      LedgerEntry.acquire Resource.cdev ∉ (initializePciDevice irq o).log := by
  unfold initializePciDevice
  cases o.enableDevice with
  | some e => simp
  | none =>
    cases o.requestRegion with
    | some e =>
      simp only
      split_ifs <;> simp
    | none =>
      simp only
      split_ifs <;> simp [unmap]

theorem acquire_notMem_releasePciDevice (irq : ℕ) (msi : Bool) (r : Resource) :
    LedgerEntry.acquire r ∉ releasePciDevice irq msi := by
  unfold releasePciDevice
  split_ifs <;> simp

theorem acquire_notMem_initializeCharDevice (o : Outcomes) :
    LedgerEntry.acquire Resource.fpga ∉ (initializeCharDevice o).log ∧
      ((initializeCharDevice o).ret ≠ 0 →
        LedgerEntry.acquire Resource.cdev ∉ (initializeCharDevice o).log) := by
  unfold initializeCharDevice
  split_ifs with hchr
  · cases o.cdevAdd with
    | some e => simp [destroyDevice, Minor.all]
    | none => simp [Minor.all]
  · simp

/-- A probe allocates one private structure. -/
theorem count_fpga_probe (irq : ℕ) (o : Outcomes) :
    (probe irq o).log.count (.acquire .fpga) ≤ 1 := by
  have hpci := List.count_eq_zero.2 (acquire_notMem_initializePciDevice irq o).1
  have hchar := List.count_eq_zero.2 (acquire_notMem_initializeCharDevice o).1
  have hrelease := fun msi => List.count_eq_zero.2 (acquire_notMem_releasePciDevice irq msi .fpga)
  unfold probe
  simp only
  split_ifs <;> simp [hpci, hchar, hrelease]

/-- A probe that fails does not come to register the character device. -/
theorem acquire_cdev_notMem_probe {irq : ℕ} {o : Outcomes} (h : (probe irq o).ret ≠ 0) :
    LedgerEntry.acquire Resource.cdev ∉ (probe irq o).log := by
  have hpci := (acquire_notMem_initializePciDevice irq o).2
  have hrelease := fun msi => acquire_notMem_releasePciDevice irq msi .cdev
  unfold probe at h ⊢
  simp only at h ⊢
  split_ifs at h ⊢ with hirq hkz hpciRet hcharRet
  · simp
  · simp [hpci]
  · simp [hpci, (acquire_notMem_initializeCharDevice o).2 hcharRet, hrelease]
  · exact absurd rfl h
  · simp

/-- What is held after a set-up, in all cases. -/
theorem setupLog_cases : ∀ msi a b c : Bool,
    ∀ r ∈ [Resource.fpga, .cdev, .mapping .mem, .mapping .leds, .mapping .switches,
        .mapping .controls],
      Ledger.after (fun _ => 0) (setupLog msi (Minor.table a b c)) r = 1 := by
  decide +kernel

theorem known_setupLog (msi : Bool) (created : Minor → Bool) :
    Known (Ledger.after (fun _ => 0) (setupLog msi created)) := by
  rw [Minor.eq_table created]
  have hheld := setupLog_cases msi (created .mem) (created .leds) (created .switches)
  refine ⟨(hheld .fpga (by decide)).le, (hheld .cdev (by decide)).le, fun _ => ⟨?_, fun m => ?_⟩⟩
  · exact (hheld .fpga (by decide)).ge
  · cases m with
    | mem => exact (hheld (.mapping .mem) (by decide)).ge
    | leds => exact (hheld (.mapping .leds) (by decide)).ge
    | switches => exact (hheld (.mapping .switches) (by decide)).ge
    | controls => exact (hheld (.mapping .controls) (by decide)).ge

theorem known_probe (irq : ℕ) (o : Outcomes) :
    Known (Ledger.after (fun _ => 0) (probe irq o).log) := by
  have hfails : (probe irq o).ret ≠ 0 → Known (Ledger.after (fun _ => 0) (probe irq o).log) := by
    intro hret
    have hcdev : Ledger.after (fun _ => 0) (probe irq o).log .cdev ≤ 0 := by
      have hle := Ledger.after_le (fun _ => 0) (probe irq o).log .cdev
      rwa [List.count_eq_zero.2 (acquire_cdev_notMem_probe hret)] at hle
    have hfpga : Ledger.after (fun _ => 0) (probe irq o).log .fpga ≤ 1 := by
      have hle := Ledger.after_le (fun _ => 0) (probe irq o).log .fpga
      have hcount := count_fpga_probe irq o
      omega
    exact ⟨hfpga, by omega, fun h => by omega⟩
  cases probe_cases irq o with
  | ignored _ _ _ hlog =>
    rw [hlog]
    exact ⟨Nat.zero_le _, Nat.zero_le _, fun h => absurd h (lt_irrefl _)⟩
  | setUp _ _ _ _ hlog =>
    rw [hlog]
    exact known_setupLog _ _
  | unwound _ hret => exact hfails hret.ne
  | notUnwound _ hret => exact hfails hret

theorem acquire_notMem_remove (irq : ℕ) (msi : Bool) (created : Minor → Bool) (r : Resource) :
    LedgerEntry.acquire r ∉ remove irq msi created := by
  have hdestroy : ∀ i, LedgerEntry.acquire r ∉ destroyDevice created i := fun i => by
    unfold destroyDevice
    split_ifs <;> simp
  simp [remove, releaseCharDevice, acquire_notMem_releasePciDevice, hdestroy]

/-- After the removal of a device nothing is left of its structure and its character device. -/
theorem after_remove {held : Resource → ℕ} (hk : Known held) (irq : ℕ) (msi : Bool)
    (created : Minor → Bool) :
    Ledger.after held (remove irq msi created) .fpga = 0 ∧
      Ledger.after held (remove irq msi created) .cdev = 0 := by
  constructor
  · exact Ledger.after_eq_zero hk.fpga_le (acquire_notMem_remove irq msi created _) (by simp [remove])
  · exact Ledger.after_eq_zero hk.cdev_le (acquire_notMem_remove irq msi created _)
      (by simp [remove, releaseCharDevice])

/-! ### Every run -/

/-- The invariant of all runs. -/
structure Wf (s : State Dev File) : Prop where
  known : ∀ n, Known fun r => s.held (n, r)
  fresh : ∀ n, s.driver.probes ≤ n → ∀ r, s.held (n, r) = 0
  live_lt : ∀ k, s.live k = true → k < s.allocated
  /-- Nothing ever frees the structure of a file. -/
  live_file : ∀ f o, s.file f = some o → s.live o.privateData = true
  distinct : ∀ f f' o o', s.file f = some o → s.file f' = some o' →
    o.privateData = o'.privateData → f = f'

omit [DecidableEq Dev] [DecidableEq File] in
theorem wf_init : Wf (init Dev File) where
  known _ := ⟨Nat.zero_le _, Nat.zero_le _, fun h => absurd h (lt_irrefl _)⟩
  fresh _ _ _ := rfl
  live_lt _ h := by cases h
  live_file _ _ h := by cases h
  distinct _ _ _ _ h := by cases h

omit [DecidableEq Dev] [DecidableEq File] in
/-- What a device holds decides whether it is there. -/
theorem deviceLive_congr {s s' : State Dev File} {n : ℕ}
    (h : ∀ r, s'.held (n, r) = s.held (n, r)) : s'.deviceLive n = s.deviceLive n := by
  simp only [State.deviceLive, h]

omit [DecidableEq Dev] [DecidableEq File] in
theorem deviceLive_of_cdev {s : State Dev File} (hw : Wf s) {n : ℕ} (h : 0 < s.held (n, .cdev)) :
    s.deviceLive n = true := by
  obtain ⟨hfpga, hmapped⟩ := (hw.known n).mapped h
  simp [State.deviceLive, hfpga, hmapped]

/-- The driver is in the state `t`, after having done this with the resources of the probe `n`. -/
def State.driven (s : State Dev File) (t : ExampleFpga.State Dev) (n : ℕ) (log : List Entry) :
    State Dev File :=
  { s with driver := t, held := Ledger.after s.held (log.map (Ledger.tag n)) }

section Driven

variable {irq : Dev → ℕ} {s : State Dev File} {t : ExampleFpga.State Dev} {n : ℕ}
  {log : List Entry}

omit [DecidableEq Dev] [DecidableEq File] in
theorem driven_self :
    (fun r => (s.driven t n log).held (n, r)) = Ledger.after (fun r => s.held (n, r)) log :=
  Ledger.after_map_tag_self s.held n log

omit [DecidableEq Dev] [DecidableEq File] in
theorem driven_of_ne {k : ℕ} (h : k ≠ n) (r : Resource) :
    (s.driven t n log).held (k, r) = s.held (k, r) :=
  congrFun (Ledger.after_map_tag_of_ne s.held h log) r

/-- What a step of the driver can be. -/
inductive DriverStep (irq : Dev → ℕ) (s : State Dev File) :
    ExampleFpga.Act Dev → State Dev File → Prop
  | probed (d : Dev) (o : Outcomes) (t : ExampleFpga.State Dev)
      (hprobes : t.probes = s.driver.probes + 1) :
      DriverStep irq s (.probe d o) (s.driven t s.driver.probes (probe (irq d) o).log)
  | ignored (d : Dev) (t : ExampleFpga.State Dev) (hprobes : t.probes = s.driver.probes)
      (hdata : s.driver.drvdata d = none) :
      DriverStep irq s (.remove d) (s.driven t s.driver.probes [])
  | removed (d : Dev) (t : ExampleFpga.State Dev) (n : ℕ) (msi : Bool) (created : Minor → Bool)
      (hprobes : t.probes = s.driver.probes) (hdata : s.driver.drvdata d = some n) :
      DriverStep irq s (.remove d) (s.driven t n (remove (irq d) msi created))

omit [DecidableEq File] in
theorem driverStep_of_step {a : ExampleFpga.Act Dev} {t : ExampleFpga.State Dev}
    {h : List (Record Dev)} (hstep : ExampleFpga.step irq s.driver a = some (t, h)) :
    DriverStep irq s a { s with driver := t, held := Ledger.after s.held (ledger h) } := by
  have hone : ∀ r : Record Dev, ledger [r] = r.log.map (Ledger.tag r.serial) := fun r =>
    List.append_nil _
  cases a with
  | probe d o =>
    simp only [ExampleFpga.step] at hstep
    split_ifs at hstep
    cases hstep
    rw [hone]
    exact .probed d o _ rfl
  | remove d =>
    simp only [ExampleFpga.step] at hstep
    split_ifs at hstep
    cases hdata : s.driver.drvdata d with
    | none =>
      rw [hdata] at hstep
      cases hstep
      rw [hone]
      exact .ignored d _ rfl hdata
    | some n =>
      rw [hdata] at hstep
      cases hstep
      rw [hone]
      exact .removed d _ n _ _ rfl hdata

omit [DecidableEq Dev] [DecidableEq File] in
/-- The files are left alone. -/
theorem Wf.driven (hw : Wf s) (hknown : Known (Ledger.after (fun r => s.held (n, r)) log))
    (hprobes : s.driver.probes ≤ t.probes)
    (hfresh : t.probes ≤ n → ∀ r, Ledger.after (fun r => s.held (n, r)) log r = 0) :
    Wf (s.driven t n log) where
  known k := by
    by_cases hk : k = n
    · subst hk
      rwa [driven_self]
    · simp only [driven_of_ne hk]
      exact hw.known k
  fresh k hle r := by
    by_cases hk : k = n
    · subst hk
      exact (congrFun driven_self r).trans (hfresh hle r)
    · rw [driven_of_ne hk]
      exact hw.fresh k (hprobes.trans hle) r
  live_lt := hw.live_lt
  live_file := hw.live_file
  distinct := hw.distinct

omit [DecidableEq Dev] [DecidableEq File] in
theorem Wf.driverStep {s' : State Dev File} {a : ExampleFpga.Act Dev} (hw : Wf s)
    (h : DriverStep irq s a s') : Wf s' := by
  cases h with
  | probed d o t hprobes =>
    have hzero : (fun r => s.held (s.driver.probes, r)) = fun _ => 0 :=
      funext (hw.fresh s.driver.probes le_rfl)
    refine hw.driven ?_ (by omega) fun hle => absurd hle (by omega)
    rw [hzero]
    exact known_probe (irq d) o
  | ignored d t hprobes hdata =>
    exact hw.driven (hw.known _) (by omega) fun _ => hw.fresh _ le_rfl
  | removed d t n msi created hprobes hdata =>
    obtain ⟨hfpga, hcdev⟩ := after_remove (hw.known n) (irq d) msi created
    refine hw.driven ⟨by omega, by omega, fun hpos => by omega⟩ (by omega) fun hle r => ?_
    have hafter := Ledger.after_le (fun r => s.held (n, r)) (remove (irq d) msi created) r
    rw [List.count_eq_zero.2 (acquire_notMem_remove (irq d) msi created r), hw.fresh n (by omega) r] at hafter
    omega

omit [DecidableEq Dev] [DecidableEq File] in
/-- Nothing happens to the devices of the open files if the resources are not theirs. -/
theorem Live.driven (hl : Live s)
    (hother : ∀ f o, s.file f = some o → (s.filePrivate o.privateData).fpga ≠ n) :
    Live (s.driven t n log) where
  pointers f o hf := by
    obtain ⟨hfile, hdevice⟩ := hl.pointers f o hf
    exact ⟨hfile, (deviceLive_congr (driven_of_ne (hother f o hf))).trans hdevice⟩
  owned := hl.owned

omit [DecidableEq Dev] [DecidableEq File] in
theorem Live.driverStep {s' : State Dev File} {a : ExampleFpga.Act Dev} (hw : Wf s) (hl : Live s)
    (h : DriverStep irq s a s') : Live s' ↔ Keeps s (.driver a) := by
  have hfresh : ∀ f o, s.file f = some o →
      (s.filePrivate o.privateData).fpga ≠ s.driver.probes := fun f o hf heq => by
    have hdevice := (hl.pointers f o hf).2
    simp [State.deviceLive, heq, hw.fresh s.driver.probes le_rfl] at hdevice
  cases h with
  | probed d o t _ => exact iff_of_true (hl.driven hfresh) trivial
  | ignored d t _ hdata => exact iff_of_true (hl.driven hfresh) fun f o _ => by simp [hdata]
  | removed d t n msi created _ hdata =>
    constructor
    · intro hl' f o hf heq
      have hn : n = (s.filePrivate o.privateData).fpga := by simpa [hdata] using heq
      have hdevice := (hl'.pointers f o hf).2
      have hgone : (s.driven t n (remove (irq d) msi created)).held (n, .fpga) = 0 :=
        (congrFun driven_self _).trans (after_remove (hw.known n) (irq d) msi created).1
      have hsame : (s.driven t n (remove (irq d) msi created)).filePrivate = s.filePrivate := rfl
      rw [hsame, ← hn] at hdevice
      simp [State.deviceLive, hgone] at hdevice
    · intro hkeeps
      exact hl.driven fun f o hf heq => hkeeps f o hf (heq ▸ hdata)

end Driven

section Open

variable {s : State Dev File} {f : File} {n : ℕ} {i : Minor}

omit [DecidableEq Dev] in
theorem opened_file_self : (s.opened f n i).file f = some ⟨n, i, s.allocated⟩ :=
  Function.update_self ..

omit [DecidableEq Dev] in
theorem opened_file_of_ne {f' : File} (h : f' ≠ f) : (s.opened f n i).file f' = s.file f' :=
  Function.update_of_ne h ..

omit [DecidableEq Dev] in
/-- The structures allocated before are as they were. -/
theorem opened_of_lt {k : ℕ} (h : k < s.allocated) :
    (s.opened f n i).live k = s.live k ∧ (s.opened f n i).filePrivate k = s.filePrivate k :=
  ⟨Function.update_of_ne h.ne .., Function.update_of_ne h.ne ..⟩

omit [DecidableEq Dev] in
/-- The new structure. -/
theorem opened_allocated : (s.opened f n i).live s.allocated = true ∧
    (s.opened f n i).filePrivate s.allocated = ⟨n, i⟩ :=
  ⟨Function.update_self .., Function.update_self ..⟩

omit [DecidableEq Dev] [DecidableEq File] in
theorem Wf.privateData_lt (hw : Wf s) {o : OpenFile} (h : s.file f = some o) :
    o.privateData < s.allocated := hw.live_lt _ (hw.live_file f o h)

omit [DecidableEq Dev] in
theorem Wf.opened (hw : Wf s) : Wf (s.opened f n i) where
  known := hw.known
  fresh := hw.fresh
  live_lt k hk := by
    by_contra hge
    have hge' : s.allocated + 1 ≤ k := not_lt.1 hge
    have hold : (s.opened f n i).live k = s.live k := Function.update_of_ne (by omega) ..
    have hlt := hw.live_lt k (hold ▸ hk)
    omega
  live_file f' o hf' := by
    by_cases h : f' = f
    · subst h
      obtain rfl := Option.some.inj (opened_file_self.symm.trans hf')
      exact opened_allocated.1
    · rw [opened_file_of_ne h] at hf'
      rw [(opened_of_lt (hw.privateData_lt hf')).1]
      exact hw.live_file f' o hf'
  distinct f₁ f₂ o₁ o₂ h₁ h₂ heq := by
    -- the new file has a structure of its own
    have hnew : ∀ f' o, f' ≠ f → (s.opened f n i).file f' = some o →
        o.privateData < s.allocated := fun f' o hne hf' =>
      hw.privateData_lt ((opened_file_of_ne hne).symm.trans hf')
    by_cases hf₁ : f₁ = f
    · by_cases hf₂ : f₂ = f
      · exact hf₁.trans hf₂.symm
      · subst hf₁
        obtain rfl := Option.some.inj (opened_file_self.symm.trans h₁)
        exact absurd heq (hnew f₂ o₂ hf₂ h₂).ne'
    · by_cases hf₂ : f₂ = f
      · subst hf₂
        obtain rfl := Option.some.inj (opened_file_self.symm.trans h₂)
        exact absurd heq (hnew f₁ o₁ hf₁ h₁).ne
      · rw [opened_file_of_ne hf₁] at h₁
        rw [opened_file_of_ne hf₂] at h₂
        exact hw.distinct f₁ f₂ o₁ o₂ h₁ h₂ heq

omit [DecidableEq Dev] in
theorem Live.opened (hw : Wf s) (hl : Live s) (hf : s.file f = none)
    (hcdev : 0 < s.held (n, .cdev)) : Live (s.opened f n i) where
  pointers f' o hf' := by
    by_cases h : f' = f
    · subst h
      obtain rfl := Option.some.inj (opened_file_self.symm.trans hf')
      refine ⟨opened_allocated.1, ?_⟩
      rw [opened_allocated.2]
      exact deviceLive_of_cdev hw hcdev
    · rw [opened_file_of_ne h] at hf'
      obtain ⟨hlive, hprivate⟩ := opened_of_lt (f := f) (n := n) (i := i) (hw.privateData_lt hf')
      rw [hlive, hprivate]
      exact hl.pointers f' o hf'
  owned k hk := by
    by_cases h : k = s.allocated
    · exact ⟨f, _, opened_file_self, h.symm⟩
    · have hold : (s.opened f n i).live k = s.live k := Function.update_of_ne h ..
      obtain ⟨f', o, hf', ho⟩ := hl.owned k (hold ▸ hk)
      refine ⟨f', o, ?_, ho⟩
      rw [opened_file_of_ne fun heq => by simp [heq, hf] at hf']
      exact hf'

omit [DecidableEq Dev] in
theorem release_file {o : OpenFile} {f' : File} {o' : OpenFile}
    (h : (release s f o).file f' = some o') : f' ≠ f ∧ s.file f' = some o' := by
  have hne : f' ≠ f := fun heq => by
    subst heq
    have hnone : (release s f' o).file f' = none := Function.update_self ..
    rw [hnone] at h
    cases h
  refine ⟨hne, ?_⟩
  have hsame : (release s f o).file f' = s.file f' := Function.update_of_ne hne ..
  rwa [hsame] at h

omit [DecidableEq Dev] in
theorem Wf.release {o : OpenFile} (hw : Wf s) : Wf (release s f o) where
  known := hw.known
  fresh := hw.fresh
  live_lt := hw.live_lt
  live_file f' o' hf' := hw.live_file f' o' (release_file hf').2
  distinct f₁ f₂ o₁ o₂ h₁ h₂ heq :=
    hw.distinct f₁ f₂ o₁ o₂ (release_file h₁).2 (release_file h₂).2 heq

omit [DecidableEq Dev] in
/-- The structure of a file that is closed belongs to no other. -/
theorem not_live_release {o : OpenFile} (hw : Wf s) (hf : s.file f = some o) :
    ¬ Live (Files.release s f o) := by
  intro hl
  obtain ⟨f', o', hf', ho'⟩ := hl.owned o.privateData (hw.live_file f o hf)
  obtain ⟨hne, hold⟩ := release_file hf'
  exact hne (hw.distinct f' f o' o hold hf ho')

end Open

theorem wf_step {irq : Dev → ℕ} {s s' : State Dev File} {a : Act Dev File}
    {out : List (Event File)} (hw : Wf s) (hstep : step irq s a = some (s', out)) : Wf s' := by
  cases a with
  | driver a =>
    obtain ⟨⟨t, h⟩, hdriver, heq⟩ := Option.map_eq_some_iff.1 hstep
    cases heq
    exact hw.driverStep (driverStep_of_step hdriver)
  | openFile f n i kmalloc =>
    simp only [step, openFile] at hstep
    split_ifs at hstep
    · cases hstep
      exact hw
    · cases hstep
      exact hw.opened
    · cases hstep
      exact hw
  | call f m =>
    obtain ⟨o, -, heq⟩ := Option.map_eq_some_iff.1 hstep
    cases heq
    exact hw
  | close f =>
    obtain ⟨o, -, heq⟩ := Option.map_eq_some_iff.1 hstep
    cases heq
    exact hw.release

theorem live_step {irq : Dev → ℕ} {s s' : State Dev File} {a : Act Dev File}
    {out : List (Event File)} (hw : Wf s) (hl : Live s)
    (hstep : step irq s a = some (s', out)) : Live s' ↔ Keeps s a := by
  cases a with
  | driver a =>
    obtain ⟨⟨t, h⟩, hdriver, heq⟩ := Option.map_eq_some_iff.1 hstep
    cases heq
    exact hl.driverStep hw (driverStep_of_step hdriver)
  | openFile f n i kmalloc =>
    refine iff_of_true ?_ trivial
    simp only [step, openFile] at hstep
    split_ifs at hstep with henabled
    · cases hstep
      exact hl
    · cases hstep
      exact hl.opened hw henabled.1 henabled.2
    · cases hstep
      exact hl
  | call f m =>
    obtain ⟨o, -, heq⟩ := Option.map_eq_some_iff.1 hstep
    cases heq
    exact iff_of_true hl trivial
  | close f =>
    obtain ⟨o, hf, heq⟩ := Option.map_eq_some_iff.1 hstep
    cases heq
    exact iff_of_false (not_live_release hw hf) id

omit [DecidableEq Dev] [DecidableEq File] in
/-- While the files are live, no method follows a pointer to something freed. -/
theorem Live.follow {s : State Dev File} (hl : Live s) {f : File} {o : OpenFile}
    (hf : s.file f = some o) : s.follow f o = .followed f true true := by
  obtain ⟨hfile, hdevice⟩ := hl.pointers f o hf
  rw [State.follow, hfile, hdevice]

/-- **The lifetime of open files**: in a run of probes, removals and calls on files, over any devices
and with any results of the calls inside them, what each open file points to exists in every state,
and each structure allocated for a file belongs to one that is open, exactly when no file is ever
closed and no device is removed while a file of its is open. -/
theorem live_iff {irq : Dev → ℕ} {acts : List (Act Dev File)} {s : State Dev File}
    {log : List (Event File)}
    (hrun : (system irq File).exec (init Dev File) acts = some (s, log)) :
    (system irq File).Always Live (init Dev File) acts ↔
      (system irq File).Along Keeps (init Dev File) acts := by
  have hlive : Live (init Dev File) :=
    { pointers := fun _ _ h => by cases h
      owned := fun _ h => by cases h }
  exact System.always_iff_along_of_step (fun _ _ _ _ hw hstep => wf_step hw hstep)
    (fun _ _ _ _ hw hl hstep => live_step hw hl hstep) wf_init hlive hrun

/-- A device is set up and the node of its memory is opened; a second `open` finds it busy. -/
theorem live_iff_busy :
    ∃ s log, (system (fun _ : Bool => 9) Bool).exec (init Bool Bool)
        [.driver (.probe true allSucceed), .openFile true 0 .mem true, .call true .read,
          .openFile false 0 .mem true] = some (s, log) ∧
      (s.file true).isSome = true ∧ (s.file false).isSome = false ∧
      (system (fun _ : Bool => 9) Bool).Always Live (init Bool Bool)
        [.driver (.probe true allSucceed), .openFile true 0 .mem true, .call true .read,
          .openFile false 0 .mem true] := by
  obtain ⟨⟨s, log⟩, hrun, hval⟩ := Option.map_eq_some_iff.1
    (show ((system (fun _ : Bool => 9) Bool).exec (init Bool Bool)
        [.driver (.probe true allSucceed), .openFile true 0 .mem true, .call true .read,
          .openFile false 0 .mem true]).map
        (fun r => ((r.1.file true).isSome, (r.1.file false).isSome)) = some (true, false) by
      decide +kernel)
  simp only [Prod.mk.injEq] at hval
  refine ⟨s, log, hrun, hval.1, hval.2, (live_iff hrun).2 ?_⟩
  exact ⟨trivial, fun _ _ _ => ⟨trivial, fun _ _ _ => ⟨trivial, fun _ _ _ =>
    ⟨trivial, fun _ _ _ => trivial⟩⟩⟩⟩

/-- A file is closed and the structure `1` allocated for it remains; the device is removed, and the
other file, which is still open, points to a device which is no longer there. -/
theorem close_leaks_remove_dangles :
    ∃ s log, (system (fun _ : Bool => 9) Bool).exec (init Bool Bool)
        [.driver (.probe true allSucceed), .openFile true 0 .mem true, .openFile false 0 .leds true,
          .close false, .driver (.remove true), .call true .read] = some (s, log) ∧
      (s.file true).map (fun o => (o.privateData,
        s.deviceLive (s.filePrivate o.privateData).fpga)) = some (0, false) ∧
      s.file false = none ∧ s.live 1 = true ∧ ¬ Live s := by
  obtain ⟨⟨s, log⟩, hrun, hval⟩ := Option.map_eq_some_iff.1
    (show ((system (fun _ : Bool => 9) Bool).exec (init Bool Bool)
        [.driver (.probe true allSucceed), .openFile true 0 .mem true, .openFile false 0 .leds true,
          .close false, .driver (.remove true), .call true .read]).map
        (fun r => ((r.1.file true).map fun o => (o.privateData,
          r.1.deviceLive (r.1.filePrivate o.privateData).fpga), (r.1.file false).isNone,
          r.1.live 1)) = some (some (0, false), true, true) by decide +kernel)
  simp only [Prod.mk.injEq, Option.isNone_iff_eq_none] at hval
  obtain ⟨htrue, hfalse, hlive⟩ := hval
  refine ⟨s, log, hrun, htrue, hfalse, hlive, fun hl => ?_⟩
  obtain ⟨o, hf, hdead⟩ := Option.map_eq_some_iff.1 htrue
  simp [(hl.pointers true o hf).2] at hdead

end IldDrivers.ExampleFpga.Files
