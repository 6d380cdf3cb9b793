import IldDrivers.Fpga.Probe
import IldDrivers.Fpga.Window

/-!
# Mapping the modules of `example-fpga` in user space

`example_fpga_mmap` maps the page frames of a module, from the first on, to the pages of a vma.

* `Vma`: a vma, whose bounds are page boundaries;
* `ExampleV11.mmap`, `ExampleFpga.mmap`: the two methods, with the page frames they map;
* `ExampleV11.mmap_confined`: the first maps the page of its buffer only;
* `ExampleFpga.mmap_confined_iff`: the vmas for which the second stays in the pages of its module and
  out of those of the controls.

The size of a page is a power of two, `2 ^ pageShift`. Flags and protection of the vma are left out.
-/

namespace IldDrivers

/-- A `vm_area_struct` of the user, with page boundaries. -/
structure Vma (pageShift : ℕ) where
  vmStart : ℕ
  vmEnd : ℕ
  vmPgoff : ℕ
  start_aligned : 2 ^ pageShift ∣ vmStart
  end_aligned : 2 ^ pageShift ∣ vmEnd
  nonempty : vmStart < vmEnd

/-- What an `mmap` method returns, and the pages of user space it has mapped, each with its page
frame. -/
structure Mmap where
  ret : ℤ
  pages : List (ℕ × ℕ)

/-- The pages that `remap_pfn_range` maps when it returns 0. -/
def remapPfnRange (pageShift addr pfn size : ℕ) : List (ℕ × ℕ) :=
  (List.range ((size + 2 ^ pageShift - 1) / 2 ^ pageShift)).map fun k =>
    (addr + k * 2 ^ pageShift, pfn + k)

variable {pageShift : ℕ}

/-- The number of pages of a vma. -/
def Vma.pages (vma : Vma pageShift) : ℕ := (vma.vmEnd - vma.vmStart) / 2 ^ pageShift

theorem Vma.length_eq (vma : Vma pageShift) :
    vma.vmEnd - vma.vmStart = vma.pages * 2 ^ pageShift :=
  (Nat.div_mul_cancel (Nat.dvd_sub vma.end_aligned vma.start_aligned)).symm

theorem Vma.pages_pos (vma : Vma pageShift) : 0 < vma.pages := by
  have hlength := vma.length_eq
  have hnonempty := vma.nonempty
  by_contra hzero
  rw [Nat.eq_zero_of_not_pos hzero, Nat.zero_mul] at hlength
  omega

/-- The page frames mapped to a vma. -/
theorem Vma.mem_remapPfnRange (vma : Vma pageShift) {addr pfn q : ℕ} :
    (∃ a, (a, q) ∈ remapPfnRange pageShift addr pfn (vma.vmEnd - vma.vmStart)) ↔
      pfn ≤ q ∧ q < pfn + vma.pages := by
  have hpage : 0 < 2 ^ pageShift := Nat.two_pow_pos pageShift
  have hcount : (vma.vmEnd - vma.vmStart + 2 ^ pageShift - 1) / 2 ^ pageShift = vma.pages := by
    rw [vma.length_eq, Nat.add_sub_assoc hpage, Nat.mul_comm, Nat.mul_add_div hpage,
      Nat.div_eq_of_lt (Nat.sub_lt hpage Nat.one_pos), Nat.add_zero]
  unfold remapPfnRange
  rw [hcount]
  constructor
  · rintro ⟨a, hmem⟩
    obtain ⟨k, hk, heq⟩ := List.mem_map.1 hmem
    cases heq
    have hlt := List.mem_range.1 hk
    omega
  · rintro ⟨hle, hlt⟩
    refine ⟨addr + (q - pfn) * 2 ^ pageShift, List.mem_map.2 ⟨q - pfn, ?_, ?_⟩⟩
    · exact List.mem_range.2 (by omega)
    · rw [Nat.add_sub_cancel' hle]

/-! ### `example-V-11` -/

namespace ExampleV11

/-- `example_mmap`; `buffer` is the physical address of `example_buffer`, `err` what
`remap_pfn_range` returns. -/
def mmap (buffer : ℕ) (vma : Vma pageShift) (err : ℤ) : Mmap :=
  if vma.vmEnd - vma.vmStart > 2 ^ pageShift then ⟨-eInval, []⟩
  else if err ≠ 0 then ⟨-eAgain, []⟩
  else
    ⟨0, remapPfnRange pageShift vma.vmStart (buffer / 2 ^ pageShift) (vma.vmEnd - vma.vmStart)⟩

/-- Only the page of the buffer is mapped. -/
theorem mmap_confined (buffer : ℕ) (vma : Vma pageShift) (err : ℤ) :
    ∀ w ∈ (mmap buffer vma err).pages, w.2 = buffer / 2 ^ pageShift := by
  rintro ⟨a, q⟩ hw
  unfold mmap at hw
  split_ifs at hw with hlong herr
  · cases hw
  · cases hw
  · obtain ⟨hle, hlt⟩ := vma.mem_remapPfnRange.1 ⟨a, hw⟩
    have hpages : vma.pages ≤ 1 := by
      rw [vma.length_eq] at hlong
      exact Nat.le_of_mul_le_mul_right (by omega) (Nat.two_pow_pos pageShift)
    show q = _
    omega

end ExampleV11

/-! ### `example-fpga` -/

namespace ExampleFpga

/-- `EXAMPLE_FPGA_MODULE_…_START`. -/
def Module.start : Module → ℕ
  | .mem => 0x0
  | .leds => 0x1000
  | .switches => 0x2000
  | .controls => 0x4000

/-- `EXAMPLE_FPGA_MODULE_…_LENGTH`. -/
def Module.length : Module → ℕ
  | .mem => 0x1000
  | .leds => 0x20
  | .switches => 0x20
  | .controls => 0x4000

/-- BAR 0, which holds the modules. -/
structure Bar (abi : Abi) where
  iobase : ℕ
  fits : iobase + 0x8000 ≤ 2 ^ abi.longBits

/-- The module that the `switch` selects. -/
def mmapModule (minor : ℤ) : Option Module :=
  if minor = minorMem then some .mem
  else if minor = minorLeds then some .leds
  else if minor = minorSwitches then some .switches
  else none

variable {abi : Abi}

/-- `example_fpga_mmap`; `err` is what `io_remap_pfn_range` returns. -/
def mmap (bar : Bar abi) (minor : ℤ) (vma : Vma pageShift) (err : ℤ) : Mmap :=
  match mmapModule minor with
  | none => ⟨-eInval, []⟩
  | some m =>
      let start := (bar.iobase + m.start) % 2 ^ abi.longBits
      if err ≠ 0 then ⟨-eAgain, []⟩
      else
        ⟨0, remapPfnRange pageShift vma.vmStart (start / 2 ^ pageShift) (vma.vmEnd - vma.vmStart)⟩

/-- The first page frame of a module, and the first behind it. -/
def Bar.firstPage (bar : Bar abi) (pageShift : ℕ) (m : Module) : ℕ :=
  (bar.iobase + m.start) / 2 ^ pageShift

def Bar.endPage (bar : Bar abi) (pageShift : ℕ) (m : Module) : ℕ :=
  (bar.iobase + m.start + m.length + 2 ^ pageShift - 1) / 2 ^ pageShift

/-- The page frame belongs to the window of the module, rounded to pages. -/
def Bar.Holds (bar : Bar abi) (pageShift : ℕ) (m : Module) (q : ℕ) : Prop :=
  bar.firstPage pageShift m ≤ q ∧ q < bar.endPage pageShift m

instance (bar : Bar abi) (pageShift : ℕ) (m : Module) (q : ℕ) :
    Decidable (bar.Holds pageShift m q) := instDecidableAnd

/-- If the call returns 0, each page frame mapped belongs to the window of the minor's module and
none to the controls. -/
def MmapConfined (bar : Bar abi) (minor : ℤ) (pageShift : ℕ) (r : Mmap) : Prop :=
  r.ret = 0 → ∀ w ∈ r.pages, (∃ m, mmapModule minor = some m ∧ bar.Holds pageShift m w.2) ∧
    ¬ bar.Holds pageShift .controls w.2

theorem Module.start_le (m : Module) : m.start ≤ Module.controls.start := by
  cases m <;> decide

theorem Module.start_add_length_le (m : Module) : m.start + m.length ≤ 0x8000 := by
  cases m <;> decide

theorem Module.length_pos (m : Module) : 0 < m.length := by
  cases m <;> decide

theorem Bar.firstPage_lt_endPage (bar : Bar abi) (pageShift : ℕ) (m : Module) :
    bar.firstPage pageShift m < bar.endPage pageShift m := by
  have hpage : 0 < 2 ^ pageShift := Nat.two_pow_pos pageShift
  have hlength := m.length_pos
  calc bar.firstPage pageShift m
      < (bar.iobase + m.start) / 2 ^ pageShift + 1 := Nat.lt_succ_self _
    _ = (bar.iobase + m.start + 2 ^ pageShift) / 2 ^ pageShift := (Nat.add_div_right _ hpage).symm
    _ ≤ bar.endPage pageShift m := Nat.div_le_div_right (by omega)

/-- A call on a minor that has a module stays in the pages of the module and out of those of the
controls exactly when `io_remap_pfn_range` fails or the vma has no more pages than the module, and no
more than there are before the controls. -/
theorem mmapConfined_of_module (bar : Bar abi) {minor : ℤ} {m : Module}
    (hminor : mmapModule minor = some m) (vma : Vma pageShift) (err : ℤ) :
    MmapConfined bar minor pageShift (mmap bar minor vma err) ↔
      err ≠ 0 ∨ (bar.firstPage pageShift m + vma.pages ≤ bar.endPage pageShift m ∧
        bar.firstPage pageShift m + vma.pages ≤ bar.firstPage pageShift .controls) := by
  have hlen := m.start_add_length_le
  have hpos := m.length_pos
  have hstart : (bar.iobase + m.start) % 2 ^ abi.longBits = bar.iobase + m.start :=
    Nat.mod_eq_of_lt (by have := bar.fits; omega)
  have hcontrols : bar.firstPage pageShift m ≤ bar.firstPage pageShift .controls :=
    Nat.div_le_div_right (Nat.add_le_add_left m.start_le _)
  have hend := bar.firstPage_lt_endPage pageShift .controls
  have hpages := vma.pages_pos
  simp only [mmap, hminor, hstart]
  split_ifs with herr
  · exact iff_of_true (fun h0 => by cases h0) (.inl herr)
  · have hmem : ∀ q, (∃ a, (a, q) ∈ remapPfnRange pageShift vma.vmStart
        (bar.firstPage pageShift m) (vma.vmEnd - vma.vmStart)) ↔ _ := fun q =>
      vma.mem_remapPfnRange
    constructor
    · intro h
      obtain ⟨a, ha⟩ := (hmem (bar.firstPage pageShift m + vma.pages - 1)).2 (by omega)
      obtain ⟨⟨m', hm', -, hlast⟩, -⟩ := h rfl _ ha
      cases hminor.symm.trans hm'
      refine .inr ⟨by simp only at hlast; omega, ?_⟩
      -- a longer vma would reach the first page of the controls
      by_contra hover
      obtain ⟨a, ha⟩ := (hmem (bar.firstPage pageShift .controls)).2 (by omega)
      exact (h rfl _ ha).2 ⟨le_rfl, hend⟩
    · rintro (h | ⟨hwindow, hbefore⟩)
      · exact absurd h herr
      · rintro - ⟨a, q⟩ hw
        obtain ⟨hle, hlt⟩ := (hmem q).1 ⟨a, hw⟩
        exact ⟨⟨m, hminor, hle, by simp only; omega⟩, fun hq => by have := hq.1; simp only at this; omega⟩

/-- **The mappings that are confined**: a call on a minor without a module fails with `-EINVAL` and maps
nothing; a call on one that has a module stays in the pages of the module and out of those of the
controls exactly when `io_remap_pfn_range` fails or the vma has no more pages than the module, and no
more than there are before the controls. -/
theorem mmap_confined_iff (bar : Bar abi) (minor : ℤ) (vma : Vma pageShift) (err : ℤ) :
    (mmapModule minor = none → mmap bar minor vma err = ⟨-eInval, []⟩) ∧
      ∀ m, mmapModule minor = some m →
        (MmapConfined bar minor pageShift (mmap bar minor vma err) ↔
          err ≠ 0 ∨ (bar.firstPage pageShift m + vma.pages ≤ bar.endPage pageShift m ∧
            bar.firstPage pageShift m + vma.pages ≤ bar.firstPage pageShift .controls)) := by
  refine ⟨fun hnone => ?_, fun m hminor => mmapConfined_of_module bar hminor vma err⟩
  simp only [mmap, hnone]

/-- With pages of 4096 bytes and a BAR that starts with one, this is a vma of one page. -/
theorem onePage_iff (bar : Bar abi) (hbar : 2 ^ 12 ∣ bar.iobase) {minor : ℤ} {m : Module}
    (hminor : mmapModule minor = some m) (vma : Vma 12) :
    (bar.firstPage 12 m + vma.pages ≤ bar.endPage 12 m ∧
      bar.firstPage 12 m + vma.pages ≤ bar.firstPage 12 .controls) ↔
      vma.vmEnd - vma.vmStart ≤ 2 ^ 12 := by
  have hlength := vma.length_eq
  unfold Bar.firstPage Bar.endPage
  cases m with
  | controls =>
    unfold mmapModule at hminor
    split_ifs at hminor <;> cases hminor
  | mem | leds | switches =>
    simp only [Module.start, Module.length]
    omega

/-- A BAR of 32 KiB. -/
def someBar : Bar .lp64 := ⟨0xf0000000, by decide⟩

/-- A vma of one page, and one of five. -/
def onePage : Vma 12 := ⟨0x10000, 0x11000, 0, by decide, by decide, by decide⟩
def fivePages : Vma 12 := ⟨0x10000, 0x15000, 0, by decide, by decide, by decide⟩

theorem mmap_confined_iff_onePage :
    MmapConfined someBar minorLeds 12 (mmap someBar minorLeds onePage 0) :=
  ((mmap_confined_iff someBar minorLeds onePage 0).2 .leds rfl).2 (.inr (by decide))

/-- The fifth page of a mapping of the memory is the first of the controls. -/
theorem mmap_reaches_controls :
    (mmap someBar minorMem fivePages 0).ret = 0 ∧
      (0x14000, 0xf0004) ∈ (mmap someBar minorMem fivePages 0).pages ∧
      someBar.Holds 12 .controls 0xf0004 ∧
      ¬ MmapConfined someBar minorMem 12 (mmap someBar minorMem fivePages 0) := by
  have hmem : (0x14000, 0xf0004) ∈ (mmap someBar minorMem fivePages 0).pages := by decide
  have hcontrols : someBar.Holds 12 .controls 0xf0004 := by decide
  exact ⟨rfl, hmem, hcontrols, fun h => (h rfl _ hmem).2 hcontrols⟩

end ExampleFpga

end IldDrivers
