import IldDrivers.Fpga.Window
import IldDrivers.Lib.Transition

/-!
# Transfers of `example-fpga`

What calls of `example_fpga_write` and `example_fpga_read` at an offset of the window move. A call
moves `moved` bytes, as many as it is given and there is room for.

* `ExampleFpga.write_eq`, `ExampleFpga.read_eq`: the two calls on the memory, in these terms;
* `ExampleFpga.Accounts`: a write returns the number of bytes it has moved and advances the offset
  by it; `ExampleFpga.accounts_iff`: the writes that do;
* `ExampleFpga.memSystem`: the calls on a memory that returns the last byte written;
  `ExampleFpga.write_read_round_trip`: what is written in pieces is read back in others.
-/

namespace IldDrivers.ExampleFpga

variable {abi : Abi}

/-! ### One call -/

/-- Where a transfer at `offset` starts in the module of `minor`. -/
def Modules.start (fpga : Modules abi) (minor offset : ℤ) : ℤ :=
  if minor = minorMem then fpga.moduleMem + offset else fpga.moduleLeds

/-- The number of bytes for which there is room. -/
def room (minor offset : ℤ) : ℤ := if minor = minorMem then moduleMemLength - offset else 4

/-- The number of bytes that a call with `n` bytes moves. -/
def moved (minor offset : ℤ) (n : ℕ) : ℕ := min n (room minor offset).toNat

/-- The bytes `l`, each with its address, from the address `a` on. -/
def consecutive (a : ℤ) (l : List UInt8) : List (ℤ × UInt8) := l.mapIdx fun i b => (a + i, b)

/-- The minor is that of a module that can be written, and the offset is in its window. -/
structure InWindow (minor offset : ℤ) : Prop where
  writable : minor = minorMem ∨ minor = minorLeds
  nonneg : 0 ≤ offset
  le_end : offset ≤ moduleMemLength

theorem InWindow.room_nonneg {minor offset : ℤ} (h : InWindow minor offset) :
    0 ≤ room minor offset := by
  have hend := h.le_end
  unfold room
  split_ifs <;> omega

theorem InWindow.room_le {minor offset : ℤ} (h : InWindow minor offset) :
    room minor offset ≤ moduleMemLength := by
  have h0 := h.nonneg
  unfold room moduleMemLength
  split_ifs <;> omega

theorem moved_le (minor offset : ℤ) (n : ℕ) : moved minor offset n ≤ n := Nat.min_le_left ..

theorem InWindow.moved_le_room {minor offset : ℤ} (h : InWindow minor offset) (n : ℕ) :
    (moved minor offset n : ℤ) ≤ room minor offset := by
  have hroom := h.room_nonneg
  unfold moved
  omega

/-- The length after the comparison with the size. -/
theorem InWindow.clip_room {minor offset : ℤ} (h : InWindow minor offset) (n : ℕ) :
    clip abi n (room minor offset) = moved minor offset n := by
  have h0 := h.room_nonneg
  have hle := h.room_le
  have hword : abi.word (room minor offset) = room minor offset := by
    unfold Abi.word moduleMemLength at *
    cases abi <;> simp only [Abi.longBits] <;> omega
  unfold clip moved
  rw [hword]
  split_ifs with hlt
  · rw [cInt_of_small (by omega) (by unfold moduleMemLength at hle; omega)]
    omega
  · omega

/-- Where the `switch` of `example_fpga_write` sends a call. -/
theorem InWindow.writeStart_eq {minor offset : ℤ} (h : InWindow minor offset)
    (fpga : Modules abi) :
    writeStart fpga minor offset = some (fpga.start minor offset, room minor offset) := by
  have h0 := h.nonneg
  have hend := h.le_end
  unfold writeStart Modules.start room
  rcases h.writable with rfl | rfl
  · rw [if_pos rfl, if_pos rfl, if_pos rfl, cInt_of_small]
    all_goals unfold moduleMemLength at *; omega
  · rw [if_neg (by decide), if_pos rfl, if_neg (by decide), if_neg (by decide)]

/-- The addresses of a transfer are not reduced. -/
theorem InWindow.word_start {minor offset : ℤ} (h : InWindow minor offset) (fpga : Modules abi)
    {n i : ℕ} (hi : i < moved minor offset n) :
    abi.word (fpga.start minor offset + i) = fpga.start minor offset + i := by
  have h0 := h.nonneg
  have hmoved := h.moved_le_room n
  obtain ⟨hmem, hmem'⟩ := fpga.mem_fits
  obtain ⟨hleds, hleds'⟩ := fpga.leds_fits
  unfold Modules.start room at *
  refine Int.emod_eq_of_lt ?_ ?_
  all_goals split_ifs at * <;> unfold moduleMemLength moduleLedsLength at * <;> omega

/-- The bytes moved lie in the module. -/
theorem InWindow.maps {minor offset : ℤ} (h : InWindow minor offset) (fpga : Modules abi)
    {n i : ℕ} (hi : i < moved minor offset n) :
    fpga.Maps minor (fpga.start minor offset + i) := by
  have h0 := h.nonneg
  have hmoved := h.moved_le_room n
  have hleds : ¬ minorLeds = minorMem := by decide
  unfold Modules.Maps Modules.start room at *
  rcases h.writable with rfl | rfl
  · rw [if_pos rfl] at hmoved
    rw [if_pos rfl, if_pos rfl]
    omega
  · rw [if_neg hleds] at hmoved
    rw [if_neg hleds, if_pos rfl, if_neg hleds]
    unfold moduleLedsLength
    omega

theorem InWindow.cLoff_eq {minor offset : ℤ} (h : InWindow minor offset) (n : ℕ) :
    cLoff (offset + moved minor offset n) = offset + moved minor offset n := by
  have h0 := h.nonneg
  have hend := h.le_end
  have hmoved := h.moved_le_room n
  have hroom := h.room_le
  unfold moduleMemLength at *
  exact Int.bmod_eq_of_le (by omega) (by omega)

/-- **A write at an offset of the window.** -/
theorem write_eq {minor offset : ℤ} (h : InWindow minor offset) (fpga : Modules abi)
    (data : List UInt8) (env : Surroundings) :
    write fpga minor offset data env =
      if moved minor offset data.length = 0 then ⟨offset, 0, [], [], []⟩
      else if ¬ env.kmalloc then ⟨offset, -eNoMem, [], [], []⟩
      else if env.copied < moved minor offset data.length then ⟨offset, -eFault, [], [], []⟩
      else ⟨offset + moved minor offset data.length, abi.ssize data.length, [], [],
        consecutive (fpga.start minor offset) (data.take (moved minor offset data.length))⟩ := by
  have hbytes : (List.range (moved minor offset data.length)).map
        (fun i : ℕ => (abi.word (fpga.start minor offset + i), data.getD i 0)) =
      consecutive (fpga.start minor offset) (data.take (moved minor offset data.length)) := by
    have hle := moved_le minor offset data.length
    apply List.ext_getElem
    · simp [consecutive, hle]
    · intro i hi _
      have hi' : i < moved minor offset data.length := by simpa using hi
      simp [consecutive, h.word_start fpga hi', show i < data.length by omega]
  have hzero : ((moved minor offset data.length : ℤ) ≤ 0) = (moved minor offset data.length = 0) :=
    propext (by omega)
  simp only [write, h.writeStart_eq, h.clip_room, h.cLoff_eq, Int.toNat_natCast, hbytes, hzero,
    Nat.cast_lt]

/-- The bytes that a read finds. -/
theorem InWindow.map_span {minor offset : ℤ} (h : InWindow minor offset) (fpga : Modules abi)
    (n : ℕ) (io : ℤ → UInt8) :
    (span abi (fpga.start minor offset) (moved minor offset n)).map io =
      Memory.load io (fpga.start minor offset) (moved minor offset n) := by
  rw [span, Int.toNat_natCast, List.map_map]
  apply List.map_congr_left
  intro i hi
  exact congrArg io (h.word_start fpga (List.mem_range.1 hi))

/-- **A read of the memory at an offset of the window.** -/
theorem read_eq {offset : ℤ} (h : InWindow minorMem offset) (fpga : Modules abi) (size : ℕ)
    (env : Surroundings) :
    read fpga minorMem offset size env =
      if moved minorMem offset size = 0 then ⟨offset, 0, [], [], []⟩
      else if ¬ env.kmalloc then ⟨offset, -eNoMem, [], [], []⟩
      else if env.copied < moved minorMem offset size then
        ⟨offset, -eFault,
          (Memory.load env.io (fpga.start minorMem offset) (moved minorMem offset size)).take
            env.copied,
          span abi (fpga.start minorMem offset) (moved minorMem offset size), []⟩
      else
        ⟨offset + moved minorMem offset size, moved minorMem offset size,
          Memory.load env.io (fpga.start minorMem offset) (moved minorMem offset size),
          span abi (fpga.start minorMem offset) (moved minorMem offset size), []⟩ := by
  have hstart : readStart fpga minorMem offset =
      some (fpga.start minorMem offset, room minorMem offset) := by
    rw [← h.writeStart_eq fpga, writeStart_eq, if_neg (by decide)]
  have hpos : ((moved minorMem offset size : ℤ) ≤ 0) = (moved minorMem offset size = 0) :=
    propext (by omega)
  have hleft : (moved minorMem offset size - env.copied ≠ 0) =
      (env.copied < moved minorMem offset size) := propext (by omega)
  have hload : ∀ a n, (Memory.load env.io a n).length = n := Memory.load_length env.io
  simp only [read, hstart, h.clip_room, h.cLoff_eq, h.map_span, copyToUser, hload, hpos, hleft]
  split_ifs with hnone hkmalloc hshort
  · rfl
  · rfl
  · rw [List.take_of_length_le ((hload _ _).trans_le (not_lt.1 hshort))]
  · rfl

/-! ### What a write returns -/

/-- If the write returns no error, it returns a number of bytes of the buffer; these bytes and no
others have been written, to consecutive addresses of the module, and the offset has advanced by their
number. -/
def Accounts (fpga : Modules abi) (minor offset : ℤ) (data : List UInt8) (e : Effect) : Prop :=
  0 ≤ e.ret → e.ret ≤ data.length ∧
    e.iowrite = consecutive (fpga.start minor offset) (data.take e.ret.toNat) ∧
    (∀ w ∈ e.iowrite, fpga.Maps minor w.1) ∧ e.offset = offset + e.ret

instance (fpga : Modules abi) (minor offset : ℤ) (data : List UInt8) (e : Effect) :
    Decidable (Accounts fpga minor offset data e) :=
  inferInstanceAs (Decidable (_ → _ ∧ _ ∧ _ ∧ _))

@[simp] theorem consecutive_length (a : ℤ) (l : List UInt8) : (consecutive a l).length = l.length :=
  List.length_mapIdx

theorem mem_consecutive {a : ℤ} {l : List UInt8} {w : ℤ × UInt8} (h : w ∈ consecutive a l) :
    ∃ i < l.length, w.1 = a + (i : ℕ) := by
  obtain ⟨i, hi, rfl⟩ := List.mem_mapIdx.1 h
  exact ⟨i, hi, rfl⟩

/-- The size of a request, returned. -/
theorem ssize_length (abi : Abi) {n : ℕ} (h : (n : ℤ) < 2 ^ abi.longBits) :
    abi.ssize n = n ∧ (n : ℤ) < 2 ^ (abi.longBits - 1) ∨
      abi.ssize n < 0 ∧ 2 ^ (abi.longBits - 1) ≤ (n : ℤ) := by
  unfold Abi.ssize
  rw [Int.bmod_def]
  cases abi <;> simp only [Abi.longBits] at * <;> split_ifs <;> omega

/-- **The writes that are accounted for**: what a write at an offset of the window returns, on a
machine where it is not taken for an error, counts the bytes written and the advance of the offset
exactly when there is room for the whole buffer, or no room at all, or the call fails before the
first byte is written. -/
theorem accounts_iff (fpga : Modules abi) {minor offset : ℤ} (h : InWindow minor offset)
    (data : List UInt8) (hdata : (data.length : ℤ) < 2 ^ abi.longBits) (env : Surroundings) :
    Accounts fpga minor offset data (write fpga minor offset data env) ↔
      (data.length : ℤ) ≤ room minor offset ∨ room minor offset = 0 ∨
        env.kmalloc = false ∨ (env.copied : ℤ) < room minor offset ∨
        2 ^ (abi.longBits - 1) ≤ (data.length : ℤ) := by
  have hroom := h.room_nonneg
  have hmoved : moved minor offset data.length = min data.length (room minor offset).toNat := rfl
  have hfailed : ∀ err, 0 < err → Accounts fpga minor offset data ⟨offset, -err, [], [], []⟩ :=
    fun err herr h0 => absurd h0 (by simpa using herr)
  rw [write_eq h]
  split_ifs with hzero hkmalloc hcopied
  · -- nothing is moved
    refine iff_of_true (fun _ => ?_) (by omega)
    simp [consecutive]
  · exact iff_of_true (hfailed eFault (by decide)) (by omega)
  · have hin : ∀ w ∈ consecutive (fpga.start minor offset)
        (data.take (moved minor offset data.length)), fpga.Maps minor w.1 := by
      intro w hw
      obtain ⟨i, hi, hwi⟩ := mem_consecutive hw
      rw [hwi]
      exact h.maps fpga (n := data.length) (by simp at hi; omega)
    rcases ssize_length abi hdata with ⟨hret, hlt⟩ | ⟨hret, hge⟩
    · rw [Accounts, hret]
      constructor
      · -- the offset tells how much has been moved
        intro hall
        obtain ⟨-, -, -, hoffset⟩ := hall (Int.natCast_nonneg _)
        simp only at hoffset
        omega
      · intro hcond _
        have hfull : moved minor offset data.length = data.length := by
          simp only [hkmalloc, Bool.true_eq_false, false_or] at hcond
          omega
        rw [hfull] at hin ⊢
        exact ⟨le_rfl, by rw [Int.toNat_natCast], hin, rfl⟩
    · exact iff_of_true (fun h0 => absurd h0 (by simpa using hret)) (by omega)
  · exact iff_of_true (hfailed eNoMem (by decide)) (by simp [hkmalloc])

/-- A byte is written at the last address of the memory. -/
theorem accounts_iff_lastByte :
    Accounts someModules minorMem 0xfff [7] (write someModules minorMem 0xfff [7]
      ⟨true, fun _ => 0, 1⟩) :=
  (accounts_iff someModules ⟨.inl rfl, by decide, by decide⟩ [7] (by decide) _).2 (.inl (by decide))

/-- Of two bytes written there, one is lost, and the call returns 2. -/
theorem write_loses_byte :
    (write someModules minorMem 0xfff [7, 8] ⟨true, fun _ => 0, 2⟩).ret = 2 ∧
      (write someModules minorMem 0xfff [7, 8] ⟨true, fun _ => 0, 2⟩).iowrite = [(0x10fff, 7)] ∧
      ¬ Accounts someModules minorMem 0xfff [7, 8]
        (write someModules minorMem 0xfff [7, 8] ⟨true, fun _ => 0, 2⟩) := by
  decide

/-! ### The memory -/

/-- A file open on the memory: what the memory holds, and the offset. -/
structure MemFile where
  io : Memory UInt8
  offset : ℤ

/-- A call on the file, whether `kmalloc` succeeds in it, and how many bytes can be copied. -/
inductive Transfer
  | write (data : List UInt8) (kmalloc : Bool) (copied : ℕ)
  | read (size : ℕ) (kmalloc : Bool) (copied : ℕ)

/-- `iowrite8` of each byte, to a memory that returns the last byte written. -/
def iowrite8 (io : Memory UInt8) (l : List (ℤ × UInt8)) : Memory UInt8 :=
  l.foldl (fun io w => io.store w.1 [w.2]) io

/-- A call, with its effect. -/
def MemFile.step (fpga : Modules abi) (s : MemFile) : Transfer → MemFile × Effect
  | .write data kmalloc copied =>
      let e := ExampleFpga.write fpga minorMem s.offset data ⟨kmalloc, s.io, copied⟩
      (⟨iowrite8 s.io e.iowrite, e.offset⟩, e)
  | .read size kmalloc copied =>
      let e := ExampleFpga.read fpga minorMem s.offset size ⟨kmalloc, s.io, copied⟩
      (⟨iowrite8 s.io e.iowrite, e.offset⟩, e)

/-- The calls on the file, one after the other. -/
def memSystem (fpga : Modules abi) : System MemFile Transfer Effect where
  step s c := some ((s.step fpga c).1, [(s.step fpga c).2])

/-- What the calls that return no error put in the buffers of the process. -/
def received (log : List Effect) : List UInt8 :=
  log.flatMap fun e => if 0 ≤ e.ret then e.user else []

/-- An attempt to move a piece of some bytes. -/
structure Attempt where
  size : ℕ
  kmalloc : Bool
  copied : ℕ

def Attempt.Succeeds (a : Attempt) : Prop := a.kmalloc = true ∧ a.size ≤ a.copied

instance (a : Attempt) : Decidable a.Succeeds := instDecidableAnd

/-- The attempts that succeed cut `n` bytes into pieces; one that fails is followed by another. -/
def Covers : ℕ → List Attempt → Prop
  | n, [] => n = 0
  | n, a :: as => 0 < a.size ∧ a.size ≤ n ∧ Covers (if a.Succeeds then n - a.size else n) as

instance instDecidableCovers : (n : ℕ) → (as : List Attempt) → Decidable (Covers n as)
  | n, [] => Nat.decEq n 0
  | n, a :: as =>
      have := instDecidableCovers (if a.Succeeds then n - a.size else n) as
      inferInstanceAs (Decidable (_ ∧ _ ∧ _))

/-- The calls that write `d`, piece by piece. -/
def writes : List UInt8 → List Attempt → List Transfer
  | _, [] => []
  | d, a :: as =>
      .write (d.take a.size) a.kmalloc a.copied ::
        writes (if a.Succeeds then d.drop a.size else d) as

/-- The calls that read piece by piece. -/
def reads (as : List Attempt) : List Transfer := as.map fun a => .read a.size a.kmalloc a.copied

theorem consecutive_cons (a : ℤ) (b : UInt8) (l : List UInt8) :
    consecutive a (b :: l) = (a, b) :: consecutive (a + 1) l := by
  simp only [consecutive, List.mapIdx_cons, Nat.cast_zero, add_zero, Nat.cast_add, Nat.cast_one,
    add_assoc, add_comm (1 : ℤ)]

theorem iowrite8_consecutive (io : Memory UInt8) (a : ℤ) (l : List UInt8) :
    iowrite8 io (consecutive a l) = io.store a l := by
  induction l generalizing io a with
  | nil => exact (Memory.store_nil io a).symm
  | cons b l ih =>
    rw [consecutive_cons]
    exact (ih (io.store a [b]) (a + 1)).trans (Memory.store_append io a [b] l).symm

variable (fpga : Modules abi) {o : ℤ} (io : Memory UInt8)

theorem moved_of_le {n : ℕ} (hn : o + n ≤ moduleMemLength) : moved minorMem o n = n := by
  unfold moved room
  rw [if_pos rfl]
  omega

theorem inWindow_mem {n : ℕ} (h0 : 0 ≤ o) (hn : o + n ≤ moduleMemLength) : InWindow minorMem o :=
  ⟨.inl rfl, h0, by omega⟩

/-- A write of a piece: it succeeds, or nothing changes. -/
theorem step_write {a : Attempt} {data : List UInt8} (hdata : data.length = a.size) (h0 : 0 ≤ o)
    (hend : o + a.size ≤ moduleMemLength) (hpos : 0 < a.size) :
    ((⟨io, o⟩ : MemFile).step fpga (.write data a.kmalloc a.copied)).1 =
      if a.Succeeds then ⟨io.store (fpga.moduleMem + o) data, o + a.size⟩ else ⟨io, o⟩ := by
  have hw := inWindow_mem h0 hend
  have hstart : fpga.start minorMem o = fpga.moduleMem + o := if_pos rfl
  have hall : data.take a.size = data := List.take_of_length_le hdata.le
  simp only [MemFile.step, write_eq hw, hdata, moved_of_le hend, hall, hstart, Attempt.Succeeds]
  by_cases hkmalloc : a.kmalloc = true
  · by_cases hcopied : a.size ≤ a.copied
    · simp [hpos.ne', hkmalloc, hcopied, not_lt.2 hcopied, iowrite8_consecutive]
    · simp [hpos.ne', hkmalloc, hcopied, not_le.1 hcopied, iowrite8]
  · simp [hpos.ne', hkmalloc, iowrite8]

/-- A read of a piece: the memory is as before, and the piece is received or the offset is as before
too. -/
theorem step_read {a : Attempt} (h0 : 0 ≤ o) (hend : o + a.size ≤ moduleMemLength)
    (hpos : 0 < a.size) :
    ((⟨io, o⟩ : MemFile).step fpga (.read a.size a.kmalloc a.copied)).1 =
        (if a.Succeeds then ⟨io, o + a.size⟩ else ⟨io, o⟩) ∧
      received [((⟨io, o⟩ : MemFile).step fpga (.read a.size a.kmalloc a.copied)).2] =
        if a.Succeeds then io.load (fpga.moduleMem + o) a.size else [] := by
  have hw := inWindow_mem h0 hend
  have hstart : fpga.start minorMem o = fpga.moduleMem + o := if_pos rfl
  simp only [MemFile.step, read_eq hw, moved_of_le hend, hstart, Attempt.Succeeds]
  by_cases hkmalloc : a.kmalloc = true
  · by_cases hcopied : a.size ≤ a.copied
    · simp [hpos.ne', hkmalloc, hcopied, not_lt.2 hcopied, iowrite8, received]
    · simp [hpos.ne', hkmalloc, hcopied, not_le.1 hcopied, iowrite8, received, eFault]
  · simp [hpos.ne', hkmalloc, iowrite8, received, eNoMem]

/-- The run of the writes. -/
theorem exec_writes {d : List UInt8} {as : List Attempt} (hcover : Covers d.length as) (h0 : 0 ≤ o)
    (hend : o + d.length ≤ moduleMemLength) :
    ∃ log, (memSystem fpga).exec ⟨io, o⟩ (writes d as) =
      some (⟨io.store (fpga.moduleMem + o) d, o + d.length⟩, log) := by
  induction as generalizing d o io with
  | nil =>
    obtain rfl := List.length_eq_zero_iff.1 hcover
    exact ⟨[], by simp [writes]⟩
  | cons a as ih =>
    obtain ⟨hpos, hle, hrest⟩ := hcover
    have hlength : (d.take a.size).length = a.size := List.length_take_of_le hle
    have hstep := step_write fpga io hlength h0 (by omega) hpos
    by_cases ha : a.Succeeds
    · rw [if_pos ha] at hstep hrest
      have hdrop : (d.drop a.size).length = d.length - a.size := List.length_drop ..
      obtain ⟨log, hlog⟩ := ih (io.store (fpga.moduleMem + o) (d.take a.size)) (hdrop ▸ hrest)
        (show 0 ≤ o + a.size by omega) (by omega)
      have hstore := Memory.store_append io (fpga.moduleMem + o) (d.take a.size) (d.drop a.size)
      rw [List.take_append_drop, hlength] at hstore
      have hoffset : o + a.size + (d.drop a.size).length = o + d.length := by omega
      refine ⟨_, System.exec_cons.2 ⟨_, _, log, congrArg some (Prod.ext hstep rfl), ?_, rfl⟩⟩
      rw [if_pos ha, hlog, hoffset, hstore, add_assoc fpga.moduleMem]
    · rw [if_neg ha] at hstep hrest
      obtain ⟨log, hlog⟩ := ih io hrest h0 hend
      refine ⟨_, System.exec_cons.2 ⟨_, _, log, congrArg some (Prod.ext hstep rfl), ?_, rfl⟩⟩
      rw [if_neg ha, hlog]

/-- The run of the reads. -/
theorem exec_reads {n : ℕ} {as : List Attempt} (hcover : Covers n as) (h0 : 0 ≤ o)
    (hend : o + n ≤ moduleMemLength) :
    ∃ log, (memSystem fpga).exec ⟨io, o⟩ (reads as) = some (⟨io, o + n⟩, log) ∧
      received log = io.load (fpga.moduleMem + o) n := by
  induction as generalizing n o with
  | nil =>
    obtain rfl : n = 0 := hcover
    exact ⟨[], by simp [reads], rfl⟩
  | cons a as ih =>
    obtain ⟨hpos, hle, hrest⟩ := hcover
    obtain ⟨hstep, hpiece⟩ := step_read fpga io h0
      (show o + a.size ≤ moduleMemLength by omega) hpos
    have hreceived : ∀ e log, received (e :: log) = received [e] ++ received log := fun e log => by
      simp [received]
    by_cases ha : a.Succeeds
    · rw [if_pos ha] at hstep hpiece hrest
      obtain ⟨log, hlog, hreads⟩ := ih hrest (show 0 ≤ o + a.size by omega) (by omega)
      have hoffset : o + a.size + (n - a.size : ℕ) = o + n := by omega
      refine ⟨_, System.exec_cons.2 ⟨_, _, log, congrArg some (Prod.ext hstep rfl), ?_, rfl⟩, ?_⟩
      · rw [← hoffset]
        exact hlog
      · have hload := Memory.load_add io (fpga.moduleMem + o) a.size (n - a.size)
        rw [Nat.add_sub_cancel' hle] at hload
        rw [List.singleton_append, hreceived, hpiece, hreads, hload, add_assoc]
    · rw [if_neg ha] at hstep hpiece hrest
      obtain ⟨log, hlog, hreads⟩ := ih hrest h0 hend
      refine ⟨_, System.exec_cons.2 ⟨_, _, log, congrArg some (Prod.ext hstep rfl), hlog, rfl⟩, ?_⟩
      rw [List.singleton_append, hreceived, hpiece, hreads, List.nil_append]

/-- **What is written is read back**: data that fits in the window, written from an offset in any
pieces and read from that offset in any others, is received as it was, and the rest of the memory is
as before. Calls may fail in between. -/
theorem write_read_round_trip {d : List UInt8} (h0 : 0 ≤ o)
    (hend : o + d.length ≤ moduleMemLength) {as bs : List Attempt}
    (hwrites : Covers d.length as) (hreads : Covers d.length bs) :
    ∃ io' log log', (memSystem fpga).exec ⟨io, o⟩ (writes d as) =
        some (⟨io', o + d.length⟩, log) ∧
      (memSystem fpga).exec ⟨io', o⟩ (reads bs) = some (⟨io', o + d.length⟩, log') ∧
      received log' = d ∧
      ∀ x, ¬ (fpga.moduleMem + o ≤ x ∧ x < fpga.moduleMem + o + d.length) → io' x = io x := by
  obtain ⟨log, hlog⟩ := exec_writes fpga io hwrites h0 hend
  obtain ⟨log', hlog', hreceived⟩ := exec_reads fpga
    (io.store (fpga.moduleMem + o) d) hreads h0 hend
  refine ⟨_, log, log', hlog, hlog', ?_, fun x hx => Memory.store_apply_of_notMem hx⟩
  rw [hreceived, Memory.load_store]

/-- Three bytes at the end of the window, written in two pieces, the second on its second attempt,
and read in two others. -/
theorem write_read_round_trip_three :
    ∃ io' log log', (memSystem someModules).exec ⟨fun _ => 0, 0xffd⟩
        (writes [1, 2, 3] [⟨2, true, 2⟩, ⟨1, false, 1⟩, ⟨1, true, 1⟩]) =
          some (⟨io', 0x1000⟩, log) ∧
      (memSystem someModules).exec ⟨io', 0xffd⟩ (reads [⟨1, true, 1⟩, ⟨2, true, 2⟩]) =
        some (⟨io', 0x1000⟩, log') ∧
      received log' = [1, 2, 3] ∧ ∀ x, ¬ (0x10ffd ≤ x ∧ x < 0x11000) → io' x = 0 :=
  write_read_round_trip someModules (fun _ => 0) (o := 0xffd) (d := [1, 2, 3]) (by decide)
    (by decide) (by decide) (by decide)

end IldDrivers.ExampleFpga
