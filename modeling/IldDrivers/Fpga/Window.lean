import IldDrivers.Kernel

/-!
# The windows of `example-fpga`

`example_fpga_read` and `example_fpga_write` move bytes between a buffer of the process and the
registers of a module, which `ioremap` has mapped. Each minor has its module. For the module of
memory the call starts at the file's offset and its length is what is left of the window, computed
in an `int` from the 64-bit offset and then compared, as a `size_t`, with the size of the request.

* `ExampleFpga.read`, `ExampleFpga.write`: the two file operations, with every address they access;
* `ExampleFpga.Modules.Maps`: the address lies in the mapping of the minor's module;
* `ExampleFpga.PastWindow`: the requests that run past the window of the memory;
* `ExampleFpga.accesses_confined_iff`: these are exactly the requests that leave the mapping.
-/

namespace IldDrivers

/-- An integer converted to a `size_t`, and the address at which a pointer computation ends. -/
def Abi.word (abi : Abi) (x : ℤ) : ℤ := x % 2 ^ abi.longBits

/-- An integer stored in a `loff_t`. -/
def cLoff (x : ℤ) : ℤ := x.bmod (2 ^ 64)

namespace ExampleFpga

def moduleMemLength : ℤ := 0x1000
def moduleLedsLength : ℤ := 0x20
def moduleSwitchesLength : ℤ := 0x20

def minorMem : ℤ := 0
def minorLeds : ℤ := 1
def minorSwitches : ℤ := 2

/-- `[a, a + n)` is a range of addresses. -/
def Fits (abi : Abi) (a n : ℤ) : Prop := 0 ≤ a ∧ a + n ≤ 2 ^ abi.longBits

instance (abi : Abi) (a n : ℤ) : Decidable (Fits abi a n) := instDecidableAnd

/-- The mappings of the three modules that have a minor, as `ioremap` has made them: none goes
past the end of the address space. -/
structure Modules (abi : Abi) where
  moduleMem : ℤ
  moduleLeds : ℤ
  moduleSwitches : ℤ
  mem_fits : Fits abi moduleMem moduleMemLength
  leds_fits : Fits abi moduleLeds moduleLedsLength
  switches_fits : Fits abi moduleSwitches moduleSwitchesLength

variable {abi : Abi}

/-- The address `a` lies in the mapping of the module of `minor`. -/
def Modules.Maps (fpga : Modules abi) (minor a : ℤ) : Prop :=
  if minor = minorMem then fpga.moduleMem ≤ a ∧ a < fpga.moduleMem + moduleMemLength
  else if minor = minorLeds then fpga.moduleLeds ≤ a ∧ a < fpga.moduleLeds + moduleLedsLength
  else fpga.moduleSwitches ≤ a ∧ a < fpga.moduleSwitches + moduleSwitchesLength

instance (fpga : Modules abi) (minor a : ℤ) : Decidable (fpga.Maps minor a) :=
  inferInstanceAs (Decidable (ite _ _ _))

/-! ### The two file operations -/

/-- What a call does not decide: whether `kmalloc` succeeds, the bytes the registers hold, and how
many bytes the user copy moves. -/
structure Surroundings where
  kmalloc : Bool
  io : ℤ → UInt8
  copied : ℕ

/-- The effect of a call: the offset it leaves, the value it returns, the bytes it puts in the
buffer of the process, the addresses given to `ioread8`, and those given to `iowrite8` with the
byte stored. -/
structure Effect where
  offset : ℤ
  ret : ℤ
  user : List UInt8
  ioread : List ℤ
  iowrite : List (ℤ × UInt8)

/-- `if (size < length) length = size;`: `length` is an `int`, the comparison is in `size_t`. -/
def clip (abi : Abi) (size length : ℤ) : ℤ := if size < abi.word length then cInt size else length

/-- The addresses `start+i` of the loop over `i < length`. -/
def span (abi : Abi) (start length : ℤ) : List ℤ :=
  (List.range length.toNat).map fun i : ℕ => abi.word (start + i)

/-- `start` and `length` after the `switch` of `example_fpga_read`. -/
def readStart (fpga : Modules abi) (minor offset : ℤ) : Option (ℤ × ℤ) :=
  if minor = minorMem then some (fpga.moduleMem + offset, cInt (moduleMemLength - offset))
  else if minor = minorLeds then some (fpga.moduleLeds, 4)
  else if minor = minorSwitches then some (fpga.moduleSwitches, 4)
  else none

/-- `start` and `length` after the `switch` of `example_fpga_write`. -/
def writeStart (fpga : Modules abi) (minor offset : ℤ) : Option (ℤ × ℤ) :=
  if minor = minorMem then some (fpga.moduleMem + offset, cInt (moduleMemLength - offset))
  else if minor = minorLeds then some (fpga.moduleLeds, 4)
  else none

/-- `example_fpga_read`. -/
def read (fpga : Modules abi) (minor offset size : ℤ) (env : Surroundings) : Effect :=
  match readStart fpga minor offset with
  | none => ⟨offset, -eInval, [], [], []⟩
  | some (start, length) =>
      let length := clip abi size length
      if length ≤ 0 then ⟨offset, 0, [], [], []⟩
      else if ¬ env.kmalloc then ⟨offset, -eNoMem, [], [], []⟩
      else
        let from_ := span abi start length
        let c := copyToUser (from_.map env.io) env.copied
        if c.2 ≠ 0 then ⟨offset, -eFault, c.1, from_, []⟩
        else ⟨cLoff (offset + length), length, c.1, from_, []⟩

/-- `example_fpga_write` of the bytes `data`. -/
def write (fpga : Modules abi) (minor offset : ℤ) (data : List UInt8) (env : Surroundings) :
    Effect :=
  match writeStart fpga minor offset with
  | none => ⟨offset, -eInval, [], [], []⟩
  | some (start, length) =>
      let length := clip abi data.length length
      if length ≤ 0 then ⟨offset, 0, [], [], []⟩
      else if ¬ env.kmalloc then ⟨offset, -eNoMem, [], [], []⟩
      else if env.copied < length then ⟨offset, -eFault, [], [], []⟩
      else ⟨cLoff (offset + length), abi.ssize data.length, [], [],
        (List.range length.toNat).map fun i : ℕ => (abi.word (start + i), data.getD i 0)⟩

/-! ### What a call accesses -/

theorem mem_span {start length a : ℤ} :
    a ∈ span abi start length ↔ ∃ i : ℕ, (i : ℤ) < length ∧ a = abi.word (start + i) := by
  simp only [span, List.mem_map, List.mem_range, Int.lt_toNat]
  constructor
  · rintro ⟨i, hi, rfl⟩
    exact ⟨i, hi, rfl⟩
  · rintro ⟨i, hi, rfl⟩
    exact ⟨i, hi, rfl⟩

theorem span_of_nonpos {start length : ℤ} (h : length ≤ 0) : span abi start length = [] := by
  unfold span
  rw [Int.toNat_of_nonpos h, List.range_zero, List.map_nil]

/-- What `example_fpga_read` can access is the span that follows the `switch`. -/
theorem mem_ioread {fpga : Modules abi} {minor offset size a : ℤ} :
    (∃ env, a ∈ (read fpga minor offset size env).ioread) ↔
      ∃ start length, readStart fpga minor offset = some (start, length) ∧
        a ∈ span abi start (clip abi size length) := by
  unfold read
  cases hstart : readStart fpga minor offset with
  | none => simp
  | some p =>
    obtain ⟨start, length⟩ := p
    by_cases hpos : clip abi size length ≤ 0
    · simp [hpos, span_of_nonpos hpos]
    · simp only [if_neg hpos, Option.some.injEq, Prod.mk.injEq, ↓existsAndEq, true_and]
      constructor
      · rintro ⟨env, ha⟩
        split_ifs at ha
        · exact ha
        · exact ha
        · cases ha
      · intro ha
        -- `kmalloc` succeeds
        refine ⟨⟨true, fun _ => 0, 0⟩, ?_⟩
        rw [if_neg (by simp)]
        split_ifs
        · exact ha
        · exact ha

/-- What `example_fpga_write` can access is the span that follows the `switch`. -/
theorem mem_iowrite {fpga : Modules abi} {minor offset a : ℤ} {data : List UInt8} :
    (∃ env, a ∈ (write fpga minor offset data env).iowrite.map Prod.fst) ↔
      ∃ start length, writeStart fpga minor offset = some (start, length) ∧
        a ∈ span abi start (clip abi data.length length) := by
  unfold write
  cases hstart : writeStart fpga minor offset with
  | none => simp
  | some p =>
    obtain ⟨start, length⟩ := p
    by_cases hpos : clip abi data.length length ≤ 0
    · simp [hpos, span_of_nonpos hpos]
    · simp only [if_neg hpos, Option.some.injEq, Prod.mk.injEq, ↓existsAndEq, true_and]
      constructor
      · rintro ⟨env, ha⟩
        split_ifs at ha
        · cases ha
        · simpa [span] using ha
        · cases ha
      · intro ha
        -- `kmalloc` and the copy succeed
        refine ⟨⟨true, fun _ => 0, (clip abi data.length length).toNat⟩, ?_⟩
        rw [if_neg (by simp), if_neg (by simp)]
        simpa [span] using ha

/-! ### The window of the memory -/

/-- A request past the window of the memory: it starts at an address `word offset` past the end of
the window. With `past` the distance of the offset from the end of the window, in 32 bits: `past` is
not 0, and the size is positive as an `int` and less than `-past` as a `size_t`; or, when `past` is
over `2 ^ 31`, the size is positive. -/
def PastWindow (abi : Abi) (minor offset size : ℤ) : Prop :=
  minor = minorMem ∧ moduleMemLength < abi.word offset ∧
    let past := (offset - moduleMemLength) % 2 ^ 32
    if past ≤ 2 ^ 31 then
      past ≠ 0 ∧ size + past < 2 ^ abi.longBits ∧ 0 < size % 2 ^ 32 ∧ size % 2 ^ 32 < 2 ^ 31
    else 0 < size

instance (abi : Abi) (minor offset size : ℤ) : Decidable (PastWindow abi minor offset size) :=
  inferInstanceAs (Decidable (_ ∧ _ ∧ ite _ _ _))

/-- At an offset in the window, the length is what is left of it. -/
theorem clip_le_of_mem_window {offset size : ℤ} (hs : 0 ≤ size)
    (hoff : abi.word offset ≤ moduleMemLength) :
    clip abi size (cInt (moduleMemLength - offset)) ≤ moduleMemLength - abi.word offset := by
  have hleft : cInt (moduleMemLength - offset) = moduleMemLength - abi.word offset := by
    rw [cInt_eq]
    unfold Abi.word moduleMemLength at *
    cases abi <;> simp only [Abi.longBits] at * <;> omega
  have hword : abi.word (moduleMemLength - abi.word offset) = moduleMemLength - abi.word offset := by
    unfold Abi.word moduleMemLength at *
    cases abi <;> simp only [Abi.longBits] at * <;> omega
  rw [hleft]
  unfold clip
  split_ifs with h
  · rw [hword] at h
    have h0 : 0 ≤ abi.word offset := Int.emod_nonneg _ (by positivity)
    rw [cInt_of_small (by omega) (by unfold moduleMemLength at h; omega)]
    omega
  · exact le_refl _

/-- Past the end of the window, the clipped length is positive for the requests of `PastWindow`. -/
theorem clip_pos_iff {offset size : ℤ} (hs : 0 ≤ size) (hs' : size < 2 ^ abi.longBits)
    (hoff : moduleMemLength < abi.word offset) :
    0 < clip abi size (cInt (moduleMemLength - offset)) ↔ PastWindow abi minorMem offset size := by
  unfold PastWindow clip
  simp only [hoff, true_and, cInt_eq]
  unfold Abi.word moduleMemLength at *
  cases abi <;> simp only [Abi.longBits] at * <;> split_ifs <;> omega

/-- The loop over the memory stays in its mapping unless the request is past the window. -/
theorem span_mem_confined_iff (fpga : Modules abi) {offset size : ℤ} (hs : 0 ≤ size)
    (hs' : size < 2 ^ abi.longBits) :
    (∀ a ∈ span abi (fpga.moduleMem + offset) (clip abi size (cInt (moduleMemLength - offset))),
      fpga.Maps minorMem a) ↔ ¬ PastWindow abi minorMem offset size := by
  obtain ⟨hbase, hend⟩ := fpga.mem_fits
  have hmaps : ∀ a, fpga.Maps minorMem a ↔
      fpga.moduleMem ≤ a ∧ a < fpga.moduleMem + moduleMemLength := fun a => by
    unfold Modules.Maps
    rw [if_pos rfl]
  simp only [hmaps]
  rcases le_or_gt (abi.word offset) moduleMemLength with hoff | hoff
  · -- in the window: the loop ends with it
    have hle := clip_le_of_mem_window hs hoff
    have hpast : ¬ PastWindow abi minorMem offset size := fun h => by have := h.2.1; omega
    refine iff_of_true ?_ hpast
    intro a ha
    obtain ⟨i, hi, rfl⟩ := mem_span.1 ha
    unfold Abi.word moduleMemLength at *
    cases abi <;> simp only [Abi.longBits] at * <;> omega
  · -- past it: the first address is out already
    rw [← clip_pos_iff hs hs' hoff]
    constructor
    · intro hin hpos
      have hfirst := hin (abi.word (fpga.moduleMem + offset)) (mem_span.2 ⟨0, by simpa using hpos, by simp⟩)
      unfold Abi.word moduleMemLength at *
      cases abi <;> simp only [Abi.longBits] at * <;> omega
    · intro hpos a ha
      rw [span_of_nonpos (not_lt.1 hpos)] at ha
      cases ha

/-- The four bytes at the start of a module of 32 bytes are in its mapping. -/
theorem span_clip_four {start size a : ℤ} (hfits : Fits abi start 0x20) (hs : 0 ≤ size)
    (ha : a ∈ span abi start (clip abi size 4)) : start ≤ a ∧ a < start + 0x20 := by
  obtain ⟨hbase, hend⟩ := hfits
  obtain ⟨i, hi, rfl⟩ := mem_span.1 ha
  unfold clip at hi
  rw [cInt_eq] at hi
  unfold Abi.word at *
  cases abi <;> simp only [Abi.longBits] at * <;> split_ifs at hi <;> omega

theorem not_pastWindow {minor offset size : ℤ} (h : minor ≠ minorMem) :
    ¬ PastWindow abi minor offset size := fun hp => h hp.1

/-- Where the `switch` of `example_fpga_read` sends a call, it stays in the mapping of the minor's
module exactly when the request is not past the window of the memory. -/
theorem readStart_confined_iff (fpga : Modules abi) (minor offset : ℤ) (size : ℕ)
    (hsize : (size : ℤ) < 2 ^ abi.longBits) :
    (∀ start length, readStart fpga minor offset = some (start, length) →
      ∀ a ∈ span abi start (clip abi size length), fpga.Maps minor a) ↔
      ¬ PastWindow abi minor offset size := by
  have hs : (0 : ℤ) ≤ size := Int.natCast_nonneg size
  unfold readStart
  split_ifs with hmem hleds hswitches
  · subst hmem
    rw [← span_mem_confined_iff fpga hs hsize]
    simp
  · refine iff_of_true ?_ (not_pastWindow hmem)
    rintro start length ⟨⟩ a ha
    unfold Modules.Maps
    rw [if_neg hmem, if_pos hleds]
    exact span_clip_four fpga.leds_fits hs ha
  · refine iff_of_true ?_ (not_pastWindow hmem)
    rintro start length ⟨⟩ a ha
    unfold Modules.Maps
    rw [if_neg hmem, if_neg hleds]
    exact span_clip_four fpga.switches_fits hs ha
  · exact iff_of_true (fun _ _ h => by cases h) (not_pastWindow hmem)

theorem writeStart_eq (fpga : Modules abi) (minor offset : ℤ) :
    writeStart fpga minor offset =
      if minor = minorSwitches then none else readStart fpga minor offset := by
  unfold writeStart readStart
  split_ifs with hmem hswitches hleds
  · rw [hmem] at hswitches
    cases hswitches
  · rfl
  · rw [hleds] at *
    contradiction
  all_goals rfl

theorem writeStart_confined_iff (fpga : Modules abi) (minor offset : ℤ) (size : ℕ)
    (hsize : (size : ℤ) < 2 ^ abi.longBits) :
    (∀ start length, writeStart fpga minor offset = some (start, length) →
      ∀ a ∈ span abi start (clip abi size length), fpga.Maps minor a) ↔
      ¬ PastWindow abi minor offset size := by
  rw [writeStart_eq]
  split_ifs with hswitches
  · refine iff_of_true (fun _ _ h => by cases h) (not_pastWindow ?_)
    rw [hswitches]
    decide
  · exact readStart_confined_iff fpga minor offset size hsize

/-- **The accesses confined**: a read and a write stay in the mapping of their minor's module,
whatever `kmalloc` and the user copy return, exactly when the request is not past the window of the
memory. -/
theorem accesses_confined_iff (fpga : Modules abi) (minor offset : ℤ) (size : ℕ)
    (hsize : (size : ℤ) < 2 ^ abi.longBits) :
    ((∀ env, ∀ a ∈ (read fpga minor offset size env).ioread, fpga.Maps minor a) ↔
      ¬ PastWindow abi minor offset size) ∧
    ∀ data : List UInt8, data.length = size →
      ((∀ env, ∀ a ∈ (write fpga minor offset data env).iowrite.map Prod.fst,
        fpga.Maps minor a) ↔ ¬ PastWindow abi minor offset size) := by
  constructor
  · rw [← readStart_confined_iff fpga minor offset size hsize]
    constructor
    · intro h start length hstart a ha
      obtain ⟨env, hmem⟩ := mem_ioread.2 ⟨start, length, hstart, ha⟩
      exact h env a hmem
    · intro h env a ha
      obtain ⟨start, length, hstart, hmem⟩ := mem_ioread.1 ⟨env, ha⟩
      exact h start length hstart a hmem
  · rintro data rfl
    rw [← writeStart_confined_iff fpga minor offset data.length hsize]
    constructor
    · intro h start length hstart a ha
      obtain ⟨env, hmem⟩ := mem_iowrite.2 ⟨start, length, hstart, ha⟩
      exact h env a hmem
    · intro h env a ha
      obtain ⟨start, length, hstart, hmem⟩ := mem_iowrite.1 ⟨env, ha⟩
      exact h start length hstart a hmem

/-- Mappings of the three modules. -/
def someModules : Modules .lp64 where
  moduleMem := 0x10000
  moduleLeds := 0x20000
  moduleSwitches := 0x30000
  mem_fits := by decide
  leds_fits := by decide
  switches_fits := by decide

/-- Reads and writes of 16 bytes at the last byte of the window are confined. -/
theorem accesses_confined_iff_lastByte :
    (∀ env, ∀ a ∈ (read someModules minorMem 0xfff (16 : ℕ) env).ioread,
      someModules.Maps minorMem a) ∧
    ∀ env, ∀ a ∈ (write someModules minorMem 0xfff (List.replicate 16 1) env).iowrite.map Prod.fst,
      someModules.Maps minorMem a :=
  have h := accesses_confined_iff someModules minorMem 0xfff 16 (by decide)
  ⟨h.1.2 (by decide), (h.2 (List.replicate 16 1) rfl).2 (by decide)⟩

/-- A read of one byte, two bytes past the last of the window, is not in the mapping. -/
theorem read_past_window :
    ∃ env, ∃ a ∈ (read someModules minorMem 0x1001 1 env).ioread, ¬ someModules.Maps minorMem a :=
  ⟨⟨true, fun _ => 0, 1⟩, 0x11001, by decide, by decide⟩

end ExampleFpga

end IldDrivers
