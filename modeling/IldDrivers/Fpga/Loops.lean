import IldDrivers.Fpga.Transfers

/-!
# The loops of the transfers of `example-fpga`

`example_fpga_read` and `example_fpga_write` move their bytes one by one, between a buffer of the kernel
and the registers. Here a transfer on the memory is its statements before the loop, the turns of the
loop, and the statements behind it.

* `enter`, `Loop.access`, `Loop.leave`: these statements;
* `step_of_enter_inl`, `step_of_enter_inr`: put together, they are the whole call;
* `InWindow.step`: a call leaves its offset in the window.
-/

namespace IldDrivers.ExampleFpga

variable {abi : Abi}

/-! ### The statements of a transfer -/

/-- A transfer in its loop: `start`, `length`, `i` and `kbuffer`, and the accesses made so far. -/
structure Loop where
  call : Transfer
  start : ℤ
  length : ℤ
  i : ℕ
  kbuffer : List UInt8
  ioread : List ℤ
  iowrite : List (ℤ × UInt8)

/-- The statements of a transfer on the memory before its loop; it can end there. -/
def enter (fpga : Modules abi) (offset : ℤ) : Transfer → Effect ⊕ Loop
  | .read size kmalloc copied =>
      match readStart fpga minorMem offset with
      | none => .inl ⟨offset, -eInval, [], [], []⟩
      | some (start, length) =>
          let length := clip abi size length
          if length ≤ 0 then .inl ⟨offset, 0, [], [], []⟩
          else if ¬ kmalloc then .inl ⟨offset, -eNoMem, [], [], []⟩
          else .inr ⟨.read size kmalloc copied, start, length, 0, [], [], []⟩
  | .write data kmalloc copied =>
      match writeStart fpga minorMem offset with
      | none => .inl ⟨offset, -eInval, [], [], []⟩
      | some (start, length) =>
          let length := clip abi data.length length
          if length ≤ 0 then .inl ⟨offset, 0, [], [], []⟩
          else if ¬ kmalloc then .inl ⟨offset, -eNoMem, [], [], []⟩
          else if copied < length then .inl ⟨offset, -eFault, [], [], []⟩
          else .inr ⟨.write data kmalloc copied, start, length, 0,
            (List.range length.toNat).map fun i => data.getD i 0, [], []⟩

/-- One turn of the loop: `kbuffer[i] = ioread8(start+i)`, or `iowrite8(kbuffer[i], start+i)`. -/
def Loop.access (abi : Abi) (r : Memory UInt8 × Loop) : Memory UInt8 × Loop :=
  let l := r.2
  let a := abi.word (l.start + l.i)
  match l.call with
  | .read .. =>
      (r.1, { l with i := l.i + 1, kbuffer := l.kbuffer ++ [r.1 a], ioread := l.ioread ++ [a] })
  | .write .. =>
      let b := l.kbuffer.getD l.i 0
      (r.1.store a [b], { l with i := l.i + 1, iowrite := l.iowrite ++ [(a, b)] })

/-- The statements behind the loop. -/
def Loop.leave (abi : Abi) (offset : ℤ) (l : Loop) : Effect :=
  match l.call with
  | .read _ _ copied =>
      let c := copyToUser l.kbuffer copied
      if c.2 ≠ 0 then ⟨offset, -eFault, c.1, l.ioread, l.iowrite⟩
      else ⟨cLoff (offset + l.length), l.length, c.1, l.ioread, l.iowrite⟩
  | .write data _ _ =>
      ⟨cLoff (offset + l.length), abi.ssize data.length, [], l.ioread, l.iowrite⟩

variable {fpga : Modules abi} {offset : ℤ} {m : Memory UInt8}

@[simp] theorem iowrite8_nil (io : Memory UInt8) : iowrite8 io [] = io := rfl

theorem iowrite8_append (io : Memory UInt8) (l l' : List (ℤ × UInt8)) :
    iowrite8 io (l ++ l') = iowrite8 (iowrite8 io l) l' := List.foldl_append

/-- The first turns of the loop of a read. -/
theorem iterate_access_read (size : ℕ) (kmalloc : Bool) (copied : ℕ) (start length : ℤ) (k : ℕ) :
    (Loop.access abi)^[k] (m, ⟨.read size kmalloc copied, start, length, 0, [], [], []⟩) =
      (m, ⟨.read size kmalloc copied, start, length, k,
        (List.range k).map fun i : ℕ => m (abi.word (start + i)),
        (List.range k).map fun i : ℕ => abi.word (start + i), []⟩) := by
  induction k with
  | zero => rfl
  | succ k ih =>
    rw [Function.iterate_succ_apply', ih]
    simp [Loop.access, List.range_succ]

/-- The first turns of the loop of a write. -/
theorem iterate_access_write (data : List UInt8) (kmalloc : Bool) (copied : ℕ) (start length : ℤ)
    (kbuffer : List UInt8) (k : ℕ) :
    (Loop.access abi)^[k] (m, ⟨.write data kmalloc copied, start, length, 0, kbuffer, [], []⟩) =
      let w := (List.range k).map fun i : ℕ => (abi.word (start + i), kbuffer.getD i 0)
      (iowrite8 m w, ⟨.write data kmalloc copied, start, length, k, kbuffer, [], w⟩) := by
  induction k with
  | zero => rfl
  | succ k ih =>
    rw [Function.iterate_succ_apply', ih]
    simp only [Loop.access, List.range_succ, List.map_append, List.map_cons, List.map_nil,
      iowrite8_append]
    rfl

theorem readStart_mem : readStart fpga minorMem offset =
    some (fpga.moduleMem + offset, cInt (moduleMemLength - offset)) := if_pos rfl

theorem writeStart_mem : writeStart fpga minorMem offset =
    some (fpga.moduleMem + offset, cInt (moduleMemLength - offset)) := if_pos rfl

/-- A transfer that ends before its loop has written nothing. -/
theorem step_of_enter_inl {c : Transfer} {e : Effect} (h : enter fpga offset c = .inl e) :
    MemFile.step fpga ⟨m, offset⟩ c = (⟨m, e.offset⟩, e) ∧ e.iowrite = [] := by
  cases c with
  | read size kmalloc copied =>
    simp only [enter, readStart_mem] at h
    simp only [MemFile.step, read, readStart_mem]
    split_ifs at h ⊢
    all_goals cases h
    all_goals exact ⟨rfl, rfl⟩
  | write data kmalloc copied =>
    simp only [enter, writeStart_mem] at h
    simp only [MemFile.step, write, writeStart_mem]
    split_ifs at h ⊢
    all_goals cases h
    all_goals exact ⟨rfl, rfl⟩

/-- What is there when the loop begins. -/
theorem enter_inr {c : Transfer} {l : Loop} (h : enter fpga offset c = .inr l) :
    l.call = c ∧ l.i = 0 ∧ 0 < l.length := by
  cases c with
  | read size kmalloc copied =>
    simp only [enter, readStart_mem] at h
    split_ifs at h with hpos
    cases h
    exact ⟨rfl, rfl, not_le.1 hpos⟩
  | write data kmalloc copied =>
    simp only [enter, writeStart_mem] at h
    split_ifs at h with hpos
    cases h
    exact ⟨rfl, rfl, not_le.1 hpos⟩

/-- **A transfer, statement by statement**: when its loop has made all its turns on a memory that
nobody else has used, it ends as the whole call does. -/
theorem step_of_enter_inr {c : Transfer} {l₀ l : Loop} {io : Memory UInt8}
    (h : enter fpga offset c = .inr l₀)
    (hturns : (Loop.access abi)^[l₀.length.toNat] (m, l₀) = (io, l)) :
    MemFile.step fpga ⟨m, offset⟩ c = (⟨io, (l.leave abi offset).offset⟩, l.leave abi offset) ∧
      iowrite8 m (l.leave abi offset).iowrite = io := by
  cases c with
  | read size kmalloc copied =>
    simp only [enter, readStart_mem] at h
    simp only [MemFile.step, read, readStart_mem]
    split_ifs at h with hpos hkmalloc
    cases h
    rw [iterate_access_read] at hturns
    cases hturns
    have hread : ∀ start length, (span abi start length).map (fun a => m a) =
        (List.range length.toNat).map fun i : ℕ => m (abi.word (start + i)) :=
      fun start length => List.map_map ..
    rw [if_neg hpos, if_neg (not_not.2 hkmalloc)]
    simp only [Loop.leave, hread]
    split_ifs
    · exact ⟨rfl, rfl⟩
    · exact ⟨rfl, rfl⟩
  | write data kmalloc copied =>
    simp only [enter, writeStart_mem] at h
    simp only [MemFile.step, write, writeStart_mem]
    split_ifs at h with hpos hkmalloc hcopied
    cases h
    rw [iterate_access_write] at hturns
    cases hturns
    rw [if_neg hpos, if_neg (not_not.2 hkmalloc), if_neg hcopied]
    have hbytes : ∀ (start : ℤ) (n : ℕ), (List.range n).map (fun i : ℕ =>
          (abi.word (start + i), ((List.range n).map fun i => data.getD i 0).getD i 0)) =
        (List.range n).map fun i : ℕ => (abi.word (start + i), data.getD i 0) := by
      intro start n
      apply List.map_congr_left
      intro i hi
      have hi' := List.mem_range.1 hi
      simp [List.getD_eq_getElem?_getD, hi']
    rw [hbytes]
    exact ⟨rfl, rfl⟩

/-- A transfer leaves the offset in the window, and accesses the memory only. -/
theorem InWindow.step (fpga : Modules abi) (m : Memory UInt8) (h : InWindow minorMem offset)
    (c : Transfer) :
    InWindow minorMem (MemFile.step fpga ⟨m, offset⟩ c).2.offset ∧
      ∀ a, (a ∈ (MemFile.step fpga ⟨m, offset⟩ c).2.ioread ∨
        a ∈ (MemFile.step fpga ⟨m, offset⟩ c).2.iowrite.map Prod.fst) → fpga.Maps minorMem a := by
  have hmoved : ∀ n, InWindow minorMem (offset + moved minorMem offset n) := fun n => by
    have h0 := h.nonneg
    have hroom : (moved minorMem offset n : ℤ) ≤ moduleMemLength - offset := h.moved_le_room n
    exact ⟨.inl rfl, by omega, by omega⟩
  cases c with
  | read size kmalloc copied =>
    have hspan : ∀ a ∈ span abi (fpga.start minorMem offset) (moved minorMem offset size),
        fpga.Maps minorMem a := by
      intro a ha
      obtain ⟨i, hi, rfl⟩ := mem_span.1 ha
      have hi' : i < moved minorMem offset size := Int.ofNat_lt.1 hi
      rw [h.word_start fpga hi']
      exact h.maps fpga hi'
    simp only [MemFile.step, read_eq h]
    split_ifs
    · exact ⟨h, by simp⟩
    · exact ⟨h, by simpa using hspan⟩
    · exact ⟨hmoved size, by simpa using hspan⟩
    · exact ⟨h, by simp⟩
  | write data kmalloc copied =>
    have hbytes : ∀ w ∈ consecutive (fpga.start minorMem offset)
        (data.take (moved minorMem offset data.length)), fpga.Maps minorMem w.1 := by
      intro w hw
      obtain ⟨i, hi, heq⟩ := mem_consecutive hw
      rw [heq]
      rw [List.length_take] at hi
      exact h.maps fpga (lt_of_lt_of_le hi (Nat.min_le_left ..))
    simp only [MemFile.step, write_eq h]
    split_ifs
    · exact ⟨h, by simp⟩
    · exact ⟨h, by simp⟩
    · refine ⟨hmoved data.length, fun a ha => ?_⟩
      obtain ⟨w, hw, rfl⟩ := List.mem_map.1 (ha.resolve_left List.not_mem_nil)
      exact hbytes w hw
    · exact ⟨h, by simp⟩

end IldDrivers.ExampleFpga
