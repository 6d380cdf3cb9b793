import IldDrivers.Messages.Queue
import Mathlib.Tactic

/-!
# The rows of the message queue

What the operations on `messages_array` do to its rows, row by row. `Queue.Sound` bounds the count
and says that the last byte of every row is NUL: no message is ever stored there, so that
`strlen(messages_array[0])` stays inside row 0 (`Sound.strlenHead_eq`). Removing the head drops
the first row in use and moves the others up (`Sound.rows_remove`), a write that is accepted adds
one row at the end (`Sound.rows_accept`), one that fails changes no row in use.
-/

namespace IldDrivers.Queue

variable {q : Queue}

/-- The count is in bounds and the last byte of every row is NUL. -/
structure Sound (q : Queue) : Prop where
  nonneg : 0 ≤ q.messagesCount
  le_max : q.messagesCount ≤ msgNbMax
  lastNul : ∀ i, 0 ≤ i → i < msgNbMax → q.messagesArray (rowAddr i + 31) = 0

theorem sound_init : Sound init where
  nonneg := le_rfl
  le_max := by decide
  lastNul _ _ _ := rfl

@[simp] theorem row_length (q : Queue) (i : ℤ) : (q.row i).length = 32 :=
  Memory.load_length ..

theorem row_getElem? (q : Queue) (i : ℤ) {k : ℕ} (hk : k < 32) :
    (q.row i)[k]? = some (q.messagesArray (rowAddr i + k)) :=
  Memory.load_getElem? _ _ hk

theorem rows_length (q : Queue) : q.rows.length = q.messagesCount.toNat := by
  simp [rows]

theorem rows_getElem? {i : ℕ} (hi : i < q.messagesCount.toNat) : q.rows[i]? = some (q.row i) := by
  simp [rows, hi]

/-- The row at the head. -/
theorem rows_head? (h : 0 < q.messagesCount) : q.rows.head? = some (q.row 0) := by
  rw [List.head?_eq_getElem?, rows_getElem? (by omega)]
  rfl

/-- Queues that agree on the bytes of the rows in use have the same rows. -/
theorem rows_congr {q' : Queue} (hcount : q'.messagesCount = q.messagesCount)
    (h : ∀ i : ℤ, 0 ≤ i → i < q.messagesCount → q'.row i = q.row i) : q'.rows = q.rows := by
  unfold rows
  rw [hcount]
  apply List.map_congr_left
  intro i hi
  rw [List.mem_range] at hi
  exact h i (by omega) (by omega)

/-! ### The scan of the head -/

theorem Sound.row_last (h : q.Sound) {i : ℤ} (h₀ : 0 ≤ i) (h₁ : i < msgNbMax) :
    (q.row i)[31]? = some 0 := by
  rw [row_getElem? q i (by omega)]
  exact congrArg some (h.lastNul i h₀ h₁)

/-- A row's C string has at most 31 bytes. -/
theorem Sound.cstring_row_length (h : q.Sound) {i : ℤ} (h₀ : 0 ≤ i) (h₁ : i < msgNbMax) :
    (cstring (q.row i)).length ≤ 31 :=
  cstring_length_le (h.row_last h₀ h₁)

/-- `strlen(messages_array[0])` does not run past row 0. -/
theorem Sound.strlenHead_eq (h : q.Sound) : q.strlenHead = (cstring (q.row 0)).length := by
  have hnul : (0 : UInt8) ∈ q.row 0 := List.mem_of_getElem? (h.row_last le_rfl (by decide))
  rw [strlenHead, show (512 : ℕ) = 32 + 480 from rfl, Memory.load_add]
  exact congrArg List.length (cstring_append_of_mem hnul _)

theorem Sound.strlenHead_le (h : q.Sound) : q.strlenHead ≤ 31 := by
  rw [h.strlenHead_eq]
  exact h.cstring_row_length le_rfl (by decide)

/-- A part of a row's C string is read at its place in the row. -/
theorem take_drop_cstring (q : Queue) (i : ℤ) {o n : ℕ}
    (h : o + n ≤ (cstring (q.row i)).length) :
    ((cstring (q.row i)).drop o).take n = q.messagesArray.load (rowAddr i + o) n := by
  exact (Memory.load_part (cstring_isPrefix (q.row i)) h).symm

/-! ### Removing the head -/

/-- After the removal of the head, row `i` is the row that was below it. -/
theorem row_remove {i : ℤ} (h₀ : 0 ≤ i)
    (h₁ : i < q.messagesCount - 1) : q.decrement.shift.row i = q.row (i + 1) := by
  have hpos : 0 < q.decrement.messagesCount := by simp only [decrement]; omega
  rw [row, shift, if_pos hpos]
  simp only [decrement, msgLgMax, rowAddr] at *
  rw [Memory.load_move (by omega) (by omega)]
  unfold row rowAddr msgLgMax
  congr 1
  omega

/-- Removing the head drops exactly row 0. -/
theorem rows_remove (q : Queue) : q.decrement.shift.rows = q.rows.tail := by
  have hcount : q.decrement.shift.messagesCount = q.messagesCount - 1 := messagesCount_shift _
  apply List.ext_getElem?
  intro i
  rw [List.getElem?_tail]
  by_cases hi : i + 1 < q.messagesCount.toNat
  · rw [rows_getElem? hi, rows_getElem? (by omega), row_remove (by omega) (by omega)]
    rfl
  · rw [List.getElem?_eq_none (by rw [rows_length]; omega),
      List.getElem?_eq_none (by rw [rows_length]; omega)]

theorem Sound.remove (h : q.Sound) (h₀ : 0 < q.messagesCount) : q.decrement.shift.Sound where
  nonneg := by rw [messagesCount_shift]; simp only [decrement]; omega
  le_max := by
    have := h.le_max
    rw [messagesCount_shift]
    simp only [decrement]
    omega
  lastNul i hi₀ hi₁ := by
    have hmax := h.le_max
    rw [shift]
    split_ifs with hpos
    · simp only [decrement, msgLgMax, rowAddr, msgNbMax] at *
      by_cases hin : i < q.messagesCount - 1
      · rw [Memory.move_apply_of_mem (by omega),
          show 32 * i + 31 - 32 * 0 + 32 * 1 = rowAddr (i + 1) + 31 by
            simp only [rowAddr, msgLgMax]; omega]
        exact h.lastNul (i + 1) (by omega) (by simp only [msgNbMax]; omega)
      · rw [Memory.move_apply_of_notMem (by omega)]
        exact h.lastNul i hi₀ hi₁
    · exact h.lastNul i hi₀ hi₁

/-! ### Storing a message -/

section Store

variable {l : List UInt8}

/-- The array with `l` stored at the beginning of the first free row. -/
def storeFree (q : Queue) (l : List UInt8) : Queue :=
  { q with messagesArray := q.messagesArray.store (rowAddr q.messagesCount) l }

theorem Sound.storeFree (h : q.Sound) (hl : l.length < 32) : (q.storeFree l).Sound where
  nonneg := h.nonneg
  le_max := h.le_max
  lastNul i h₀ h₁ := by
    rw [Queue.storeFree, ← h.lastNul i h₀ h₁]
    simp only [rowAddr, msgLgMax]
    rcases lt_or_ge i q.messagesCount with hlt | hge
    · exact Memory.store_apply_of_lt (by omega)
    · exact Memory.store_apply_of_ge (by omega)

/-- The rows in use are not touched. -/
theorem row_storeFree {i : ℤ} (hi : i < q.messagesCount) : (q.storeFree l).row i = q.row i :=
  Memory.load_store_of_disjoint (.inl (by simp only [rowAddr, msgLgMax]; omega))

theorem rows_storeFree (q : Queue) (l : List UInt8) : (q.storeFree l).rows = q.rows :=
  rows_congr rfl fun _ _ hi => row_storeFree hi

/-- The row written starts with the message and ends with what was there before. -/
theorem row_storeFree_self (q : Queue) (hl : l.length ≤ 32) :
    (q.storeFree l).row q.messagesCount = l ++ (q.row q.messagesCount).drop l.length := by
  obtain ⟨d, hd⟩ := Nat.exists_eq_add_of_le hl
  unfold row
  rw [hd, Memory.load_add, Memory.load_drop _ _ (Nat.le_add_right _ d), Nat.add_sub_cancel_left]
  congr 1
  · exact Memory.load_store ..
  · exact Memory.load_store_of_disjoint (.inr le_rfl)

/-- A message accepted adds one row. -/
theorem rows_accept (h₀ : 0 ≤ q.messagesCount) :
    (q.storeFree l).increment.rows = q.rows ++ [(q.storeFree l).row q.messagesCount] := by
  have hcount : (q.storeFree l).increment.messagesCount.toNat = q.messagesCount.toNat + 1 := by
    simp only [increment, Queue.storeFree]
    omega
  conv_lhs => unfold rows
  rw [hcount, List.range_succ, List.map_append, ← rows_storeFree q l, List.map_singleton]
  congr 2
  show (q.storeFree l).row _ = _
  rw [Int.toNat_of_nonneg h₀]

theorem Sound.increment (h : q.Sound) (hlt : q.messagesCount < msgNbMax) : q.increment.Sound where
  nonneg := by have := h.nonneg; simp only [Queue.increment]; omega
  le_max := by simp only [Queue.increment]; omega
  lastNul := h.lastNul

end Store

theorem copyIn_eq_storeFree (q : Queue) (data : List UInt8) (copied : ℕ) :
    ∃ l : List UInt8, l.length = data.length ∧ (q.copyIn data copied).1 = q.storeFree l := by
  obtain ⟨l, hl, h⟩ := copyFromUser_eq_store q.messagesArray (rowAddr q.messagesCount) data copied
  exact ⟨l, hl, by rw [copyIn, storeFree, ← h]⟩

theorem copyIn_complete {data : List UInt8} {copied : ℕ} (h : (q.copyIn data copied).2 = 0) :
    (q.copyIn data copied).1 = q.storeFree data := by
  rw [copyIn, storeFree, copyFromUser_complete h]

end IldDrivers.Queue
